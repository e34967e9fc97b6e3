import AioMoqt.Delivery.SubgroupDelivery

/-!
# Whole groups

What a source promises of the objects it offers, and what a FIN promises the peer of the
group of its stream.
-/

namespace AioMoqt.Delivery

/-- A lane in front of a delivery. -/
abbrev DeliveryLane := SendLane SubgroupDelivery DeliveryAwait DeliveryObject

abbrev DeliveryEvent := LaneEvent DeliveryObject Transport

/-- What comes after `before`: an object of its newest group, or the first of a newer one.  The
first group may be one the peer joined in. -/
structure Follows (before : List DeliveryItem) (x : DeliveryItem) : Prop where
  ascends : ∀ w ∈ before, w.groupId ≤ x.groupId
  first : x.object.groupStart = true → ∀ w ∈ before, w.groupId ≠ x.groupId
  begun : x.object.groupStart = false → ∀ w ∈ before, w.groupId < x.groupId →
    ∃ z ∈ before, z.groupId = x.groupId

/-- Groups ascend, and `group_start` marks the first object of each. -/
def Numbered (items : List DeliveryItem) : Prop :=
  ∀ before x after, items = before ++ x :: after → Follows before x

/-- From the object its stream was opened for on, every object of the group was sent on the
stream or is outside the filter, but for what still waits. -/
def Complete (s : DeliveryLane) (header : StreamHeader) : Prop :=
  ∀ opener ∈ header.opener, ∀ x ∈ s.offered, x.groupId = header.groupId → opener ≤ x.place →
    (header.sid, x) ∈ s.writer.sent ∨ x ∈ s.writer.excluded ∨ x ∈ s.queued

/-- A lane of a new delivery under the PER_GROUP mapping. -/
def DeliveryLane.start (writesNowait : Bool) (maxBytes : Int) (gate : Bool)
    (joined : Option Nat) : DeliveryLane :=
  SendLane.start { mapping := .perGroup, writesNowait } maxBytes gate joined

end AioMoqt.Delivery
