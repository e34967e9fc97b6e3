import AioMoqt.Messages.FetchObject
import AioMoqt.Messages.Location

/-!
# One peer of a published track

`_Subscription` of `track.py`: the Forward State, the filter window and the requests of a
peer, and `SubgroupHeader` of `messages/data.py`, which codes the object ids of one
subgroup stream.
-/

namespace AioMoqt.Publisher

open AioMoqt.Messages AioMoqt.Lib.BigEndian

/-! ## Windows -/

/-- The Locations a subscription admits; `_ENDED` and `_DONE` mark one whose End Group is
behind production, before and after its PUBLISH_DONE. -/
inductive Window where
  | range (start : Location) (endGroup endObject : Option Nat)
  | ended
  | done
deriving DecidableEq

/-- `_UNFILTERED`. -/
def Window.unfiltered : Window := .range (.mk 0 0) none none

/-- Status codes of PUBLISH_DONE. -/
inductive DoneStatus where
  | trackEnded | subscriptionEnded
deriving DecidableEq

/-- `_Subscription`.  `requests` are the live requests with the alias each was given,
`endsWithDone` is `publish_done_subscription_ended` of the session's profile, and
`closed` says that the session is gone. -/
structure Subscription where
  trackAlias : Nat := 0
  nextAlias : Nat := 0
  requests : List (Nat × Nat) := []
  subscribeRequest : Option Nat := none
  forward : Bool := true
  window : Window := .unfiltered
  generating : Bool := false
  finished : Bool := false
  streamCount : Nat := 0
  fillStreams : Nat := 0
  openStreams : Nat := 0
  endStatus : DoneStatus := .subscriptionEnded
  endsWithDone : Bool := true
  closed : Bool := false

namespace Subscription

variable (sub : Subscription)

/-- The subscription takes this Location: Forward State 1, and inside its window. -/
def passes (group object : Nat) : Bool :=
  sub.forward &&
    match sub.window with
    | .range start endGroup endObject =>
        start ≤ Location.mk group object &&
          match endGroup with
          | none => true
          | some last => group < last || group = last && endObject.all (object ≤ ·)
    | _ => false

/-- A filter of draft 20 ends inside this group, before `object`. -/
def excludesEnd (group object : Nat) : Bool :=
  match sub.window with
  | .range _ (some endGroup) (some endObject) => group = endGroup && endObject < object
  | _ => false

/-- Production is past the End Group. -/
def pastEnd (group : Nat) : Bool :=
  match sub.window with
  | .range _ endGroup _ => endGroup.any (· < group)
  | _ => true

/-- The first object of a group that the window admits, as `_send_head` reads it; none once
the window is a mark. -/
def firstObject (group : Nat) : Option Nat :=
  match sub.window with
  | .range start _ _ => some (max start (.mk group 0)).object
  | _ => none

/-- The aliases of the live requests. -/
def aliases : List Nat := sub.requests.map Prod.snd

/-! ### The end of a subscription -/

/-- The last stream of an ended subscription has closed. -/
def drained : Bool := sub.window = .ended && sub.openStreams = 0

/-- `_finish_range`: an ended subscription takes no more once its streams are closed; the
end of the track is final. -/
def finishRange : Subscription :=
  if sub.drained then
    { sub with
      window := .done
      requests := []
      finished := sub.finished || sub.endStatus = .trackEnded }
  else sub

/-- `_stream_opened`. -/
def streamOpened : Subscription := { sub with openStreams := sub.openStreams + 1 }

/-- A stream of the peer closes. -/
def streamClosed : Subscription := { sub with openStreams := sub.openStreams - 1 }

/-- `_end_subscription`, up to its `_finish_range`. -/
def ended (status : DoneStatus) : Subscription :=
  { sub with window := .ended, endStatus := status, generating := false }

end Subscription

/-! ## Headers -/

/-- An object as it is coded on a subgroup stream, its id as the distance to the one
before. -/
structure Item where
  delta : Nat
  payload : Bytes
  extensions : Option KeyValuePairs
  status : ObjectStatus

/-- `SubgroupHeader`: what it writes in front, and the id it coded last. -/
structure Header where
  group : Nat
  last : Option Nat := none
  firstObject : Bool := true

namespace Header

variable (h : Header)

/-- `next_object_id`. -/
def nextObjectId : Nat := h.last.elim 0 (· + 1)

/-- `next_object_bytes` and `next_object`: the object id delta cannot be negative. -/
def nextObject (object : Nat) (payload : Bytes) (extensions : Option KeyValuePairs)
    (status : ObjectStatus) : Option (Item × Header) :=
  if h.nextObjectId ≤ object then
    some (⟨object - h.nextObjectId, payload, extensions, status⟩, { h with last := some object })
  else none

end Header

/-- The ids a receiver reads off the objects of a stream, after the one it read last. -/
def decodeIds : Option Nat → List Item → List Nat
  | _, [] => []
  | last, item :: rest =>
      let id := last.elim 0 (· + 1) + item.delta
      id :: decodeIds (some id) rest

end AioMoqt.Publisher
