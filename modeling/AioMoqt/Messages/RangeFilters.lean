import AioMoqt.Messages.Params

/-!
# The Range Filters of a request

`RangeFilters` of `messages/params.py`: the filters of a SetID are AND'd, SetIDs OR'd.
The Track Property filters are tested once, when the track is known, and the others on
each object.
-/

namespace AioMoqt.Messages

open AioMoqt.Lib

def ParamValue.rangeFilter? : ParamValue → Option RangeFilter
  | .plain (.rangeFilter filter) => some filter
  | _ => none

/-- `_range_filter_items`. -/
def rangeFilterItems (params : Params) : List (Nat × RangeFilter) :=
  rangeFilters.flatMap fun ptype =>
    match params.get? ptype with
    | none => []
    | some slot => (slot.values.filterMap ParamValue.rangeFilter?).map fun filter => (ptype, filter)

/-- `_in_ranges`: a value that is missing or not an integer is in none. -/
def inRanges (filter : RangeFilter) : Option KvpValue → Bool
  | some (.int v) =>
      filter.ranges.any fun range => range.1 ≤ v ∧ range.2.all fun stop => v ≤ stop
  | _ => false

/-- The property a filter names. -/
def propertyOf (properties : Option (Dict Nat KvpValue)) (filter : RangeFilter) :
    Option KvpValue :=
  filter.propertyType.bind (properties.getD .empty).get?

/-- The compiled filters: no sets pass everything. -/
structure RangeFilters where
  sets : List (List (Nat × RangeFilter)) := []
deriving DecidableEq

namespace RangeFilters

def subgroupFilter : Nat := 0x25
def objectIdFilter : Nat := 0x26
def priorityFilter : Nat := 0x27
def objectPropertyFilter : Nat := 0x28
def trackPropertyFilter : Nat := 0x29

/-- One more filter, behind those of its SetID; the form without SetID removes a filter
and is none itself. -/
def addToSet (bySet : Dict Nat (List (Nat × RangeFilter))) (item : Nat × RangeFilter) :
    Dict Nat (List (Nat × RangeFilter)) :=
  match item.2.setId with
  | none => bySet
  | some setId => bySet.insert setId ((bySet.get? setId).getD [] ++ [item])

/-- `RangeFilters.from_params`. -/
def fromParams (params : Option Params) : RangeFilters :=
  ⟨((rangeFilterItems (params.getD .empty)).foldl addToSet .empty).sorted.map Prod.snd⟩

/-- `RangeFilters.for_track`: the sets whose Track Property filters the track passes,
without these; none if there is no such set, and everything passes if one is left empty. -/
def forTrack (self : RangeFilters) (properties : Option (Dict Nat KvpValue)) :
    Option RangeFilters :=
  if self.sets = [] then some self
  else
    let passed := self.sets.filter fun filters =>
      (filters.filter (·.1 = trackPropertyFilter)).all fun item =>
        inRanges item.2 (propertyOf properties item.2)
    let kept := passed.map (·.filter (·.1 ≠ trackPropertyFilter))
    if kept = [] then none
    else if [] ∈ kept then some {}
    else some ⟨kept⟩

/-- The value a filter is tested on for an object; the Track Property filters are not. -/
def objectValue (subgroupId objectId priority : Nat) (properties : Option (Dict Nat KvpValue))
    (item : Nat × RangeFilter) : Option (Option KvpValue) :=
  if item.1 = subgroupFilter then some (some (.int subgroupId))
  else if item.1 = objectIdFilter then some (some (.int objectId))
  else if item.1 = priorityFilter then some (some (.int priority))
  else if item.1 = objectPropertyFilter then some (propertyOf properties item.2)
  else none

/-- The step of the inner loop of `admits`. -/
def passesObject (subgroupId objectId priority : Nat) (properties : Option (Dict Nat KvpValue))
    (item : Nat × RangeFilter) : Bool :=
  match objectValue subgroupId objectId priority properties item with
  | some value => inRanges item.2 value
  | none => true

/-- `RangeFilters.admits`. -/
def admits (self : RangeFilters) (subgroupId objectId priority : Nat)
    (properties : Option (Dict Nat KvpValue)) : Bool :=
  self.sets = [] ∨ self.sets.any fun filters =>
    filters.all (passesObject subgroupId objectId priority properties)

end RangeFilters

end AioMoqt.Messages
