import AioMoqt.Media.Catalog
import AioMoqt.Messages.FetchObject
import AioMoqt.Messages.Location

/-!
# The catalog of a subscriber

`MediaSubscriber` of `media/broadcast.py`, as far as it keeps the catalog: objects of the
catalog track come from the joining FETCH and from the subscription, and the Location of the
last one applied is kept.
-/

namespace AioMoqt.Media

open AioMoqt.Lib AioMoqt.Messages

/-- An object as it is handed on.  The payload is the document read from it, if it is one. -/
structure CatalogObject where
  groupId : Nat
  objectId : Nat
  status : Option ObjectStatus := none
  payload : Option Json

/-- `MediaSubscriber`. -/
structure MediaSubscriber where
  catalog : Option Catalog := none
  catalogAt : Option Location := none
  haveCatalog : Bool := false

namespace MediaSubscriber

/-- The end of `_on_catalog_object`. -/
def applied (place : Location) (catalog : Catalog) : MediaSubscriber where
  catalog := some catalog
  catalogAt := some place
  haveCatalog := true

/-- `_on_catalog_object`.  An error of `apply` leaves it with the catalog half changed. -/
def onCatalogObject (s : MediaSubscriber) (msg : CatalogObject) (groupId : Option Nat) :
    MediaSubscriber :=
  if msg.status ≠ none ∧ msg.status ≠ some .normal then s
  else
    let place := Location.mk (groupId.getD msg.groupId) msg.objectId
    if s.catalogAt.any fun mark => place ≤ mark then s
    else match msg.payload.map Catalog.fromJson with
      | none => s
      | some (.error _) => s
      | some (.ok update) =>
          if update.isDelta then
            match s.catalog with
            | none => s
            | some catalog => match catalog.apply update with
              | (catalog, some _) => { s with catalog := some catalog }
              | (catalog, none) => applied place catalog
          else applied place update

/-- `_on_catalog_fetch_object`. -/
def onCatalogFetchObject (s : MediaSubscriber) (msg : CatalogObject) : MediaSubscriber :=
  s.onCatalogObject msg none

end MediaSubscriber

/-! ## The catalog track -/

/-- Objects of the catalog track in the order they were published: object 0 of a group is
independent, later ones are deltas, and each applies where it stands. -/
structure Published (published : List (Location × Catalog)) : Prop where
  applies : catalogUpdates.Applies published
  independent : ∀ entry ∈ published, entry.2.isDelta ↔ entry.1.object ≠ 0

/-- What reaches the subscriber: an object of the track, by its position there, through the
joining FETCH or the subscription, or a marker of either. -/
inductive Delivery where
  | fetch (i : Nat)
  | live (i : Nat)
  | marker (msg : CatalogObject) (groupId : Option Nat)

namespace Delivery

/-- The object delivered. -/
def object? : Delivery → Option Nat
  | fetch i => some i
  | live i => some i
  | marker _ _ => none

def fetched? : Delivery → Option Nat
  | fetch i => some i
  | _ => none

def live? : Delivery → Option Nat
  | live i => some i
  | _ => none

end Delivery

/-- An object of the track as it is handed on. -/
def catalogObject (entry : Location × Catalog) : CatalogObject where
  groupId := entry.1.group
  objectId := entry.1.object
  status := some .normal
  payload := some entry.2.toJson

/-- Deliveries of a join: each stream in order, and each object from the first received group
on at least once. -/
structure Joined (published : List (Location × Catalog)) (deliveries : List Delivery) : Prop where
  range : ∀ i ∈ deliveries.filterMap Delivery.object?, i < published.length
  fetchOrder : (deliveries.filterMap Delivery.fetched?).Pairwise (· < ·)
  liveOrder : (deliveries.filterMap Delivery.live?).Pairwise (· < ·)
  markers : ∀ msg groupId, Delivery.marker msg groupId ∈ deliveries →
    msg.status ≠ none ∧ msg.status ≠ some .normal
  covered : ∀ first ∈ deliveries.filterMap Delivery.object?, ∀ i, (hi : i < published.length) →
    (∀ entry ∈ published[first]?, entry.1.group ≤ published[i].1.group) →
    i ∈ deliveries.filterMap Delivery.object?
  received : deliveries.filterMap Delivery.object? ≠ []

namespace MediaSubscriber

/-- One delivery. -/
def deliver (published : List (Location × Catalog)) (s : MediaSubscriber) :
    Delivery → MediaSubscriber
  | .fetch i => (published[i]?).elim s fun entry => s.onCatalogFetchObject (catalogObject entry)
  | .live i => (published[i]?).elim s fun entry =>
      s.onCatalogObject (catalogObject entry) (some entry.1.group)
  | .marker msg groupId => s.onCatalogObject msg groupId

/-- Deliveries in order. -/
def run (published : List (Location × Catalog)) (deliveries : List Delivery) : MediaSubscriber :=
  deliveries.foldl (deliver published) {}

/-- The subscriber never holds a catalog that the publisher did not have, and ends with the
publisher's. -/
structure Converges (published : List (Location × Catalog)) (deliveries : List Delivery) :
    Prop where
  always : ∀ before, before <+: deliveries → (run published before).catalog = none ∨
    ∃ k < published.length, (run published before).catalog = catalogUpdates.valueAt published k
  ends : (run published deliveries).catalog =
    catalogUpdates.replay none (published.map Prod.snd)

/-- The object is a delta. -/
def isDeltaAt (published : List (Location × Catalog)) (i : Nat) : Bool :=
  (published[i]?).any fun entry => entry.2.isDelta

/-- The deliveries from the first independent catalog on. -/
def kept (published : List (Location × Catalog)) (deliveries : List Delivery) : List Nat :=
  (deliveries.filterMap Delivery.object?).dropWhile (isDeltaAt published)

/-- From the first independent catalog on no delta overtakes the object before it, the last
object published is among these deliveries, and the versions are ones the subscriber reads. -/
structure Caught (published : List (Location × Catalog)) (deliveries : List Delivery) : Prop where
  readable : ∀ entry ∈ published, entry.2.Readable
  near : ∀ before i after, kept published deliveries = before ++ i :: after →
    isDeltaAt published i → ∃ j ∈ before, i ≤ j + 1
  last : published.length - 1 ∈ kept published deliveries

end MediaSubscriber

end AioMoqt.Media
