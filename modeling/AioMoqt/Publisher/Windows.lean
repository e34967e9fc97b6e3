import AioMoqt.Publisher.Subscription
import AioMoqt.Relay.Fanout

/-!
# Filter windows

`_filter_window`, `_location_window` and `_subscription_window` of `track.py`: the window that
the filter of a SUBSCRIBE opens against the Largest Location, as the publisher and the relay
hold it.
-/

namespace AioMoqt.Publisher

open AioMoqt.Messages

/-- The Start Location, the End Group and the last object of the End Group. -/
abbrev FilterWindow : Type := Location × Option Nat × Option Nat

/-- `_UNFILTERED`. -/
def unfilteredWindow : FilterWindow := (.mk 0 0, none, none)

/-- `FilterType.NEXT_GROUP_START`. -/
def nextGroupStart : Nat := 1

/-- `FilterType.LATEST_OBJECT`. -/
def latestObject : Nat := 2

/-- `FilterType.ABSOLUTE_START`. -/
def absoluteStart : Nat := 3

/-- `FilterType.ABSOLUTE_RANGE`. -/
def absoluteRange : Nat := 4

/-- `_filter_window`. -/
def filterWindow (filter : SubscriptionFilter) (largest : Option Location) : FilterWindow :=
  let stop := if filter.filterType = some absoluteRange then filter.endGroup else none
  if filter.filterType = some latestObject then
    (largest.elim (.mk 0 0) fun loc => .mk loc.group (loc.object + 1), stop, none)
  else if filter.filterType = some nextGroupStart then
    (largest.elim (.mk 0 0) fun loc => .mk (loc.group + 1) 0, stop, none)
  else if filter.filterType = some absoluteStart ∨ filter.filterType = some absoluteRange then
    (.mk (filter.startGroup.getD 0) (filter.startObject.getD 0), stop, none)
  else unfilteredWindow

/-- `_location_window`. -/
def locationWindow (filter : LocationFilter) (largest : Option Location) : FilterWindow :=
  match filter with
  | .none => unfilteredWindow
  | .nextObject => (largest.elim (.mk 0 0) fun loc => .mk loc.group (loc.object + 1), none, none)
  | .relativeStart groups =>
      (.mk (largest.elim 0 (fun loc => loc.group + 1) - groups) 0, none, none)
  | .absoluteStart group object => (.mk group object, none, none)
  | .absoluteGroupEnd group object endGroup => (.mk group object, some endGroup, none)
  | .absoluteRange group object endGroup endObject =>
      (.mk group object, some endGroup, some endObject)

/-- `_subscription_window`. -/
def subscriptionWindow (locationFilter : Option LocationFilter) (filter : SubscriptionFilter)
    (largest : Option Location) : FilterWindow :=
  match locationFilter with
  | some locationFilter => locationWindow locationFilter largest
  | none => filterWindow filter largest

/-- The window of a `_Subscription`. -/
def Window.ofFilter (window : FilterWindow) : Window := .range window.1 window.2.1 window.2.2

end AioMoqt.Publisher

/-- The window of a `_Downstream`. -/
def AioMoqt.Relay.Window.ofFilter (window : AioMoqt.Publisher.FilterWindow) :
    AioMoqt.Relay.Window :=
  ⟨window.1, window.2.1, window.2.2⟩
