import AioMoqt.Messages.Fetch
import Mathlib.Data.Prod.Lex

/-!
# Locations

A Location is a group and an object id, ordered as Python orders the pair.
`LocationFilter.resolve` and `fill_range` of `messages/params.py` turn a filter into
the range it asks for, against the Largest Location of the track.
-/

namespace AioMoqt.Messages

/-- A (group, object) pair, ordered by group first. -/
abbrev Location : Type := Nat ×ₗ Nat

namespace Location

instance : LawfulBEq Location := inferInstance

def mk (group object : Nat) : Location := toLex (group, object)

def group (loc : Location) : Nat := (ofLex loc).1

def object (loc : Location) : Nat := (ofLex loc).2

@[simp] theorem group_mk (g o : Nat) : (mk g o).group = g := rfl

@[simp] theorem object_mk (g o : Nat) : (mk g o).object = o := rfl

@[simp] theorem mk_eta (loc : Location) : mk loc.group loc.object = loc := rfl

theorem le_iff {a b : Location} :
    a ≤ b ↔ a.group < b.group ∨ a.group = b.group ∧ a.object ≤ b.object :=
  Prod.Lex.le_iff

theorem lt_iff {a b : Location} :
    a < b ↔ a.group < b.group ∨ a.group = b.group ∧ a.object < b.object :=
  Prod.Lex.lt_iff

end Location

/-- Where a request starts, and where it ends if it has an end; both are included. -/
structure LocationRange where
  start : Location
  stop : Option Location
deriving DecidableEq

/-- The Locations of a range. -/
def LocationRange.denoted (range : LocationRange) : Set Location :=
  {loc | range.start ≤ loc ∧ ∀ stop ∈ range.stop, loc ≤ stop}

namespace LocationFilter

/-- The start of `resolve`. -/
def resolveStart (filter : LocationFilter) (largest : Option Location) : Location :=
  match filter with
  | relativeStart groups =>
      .mk (largest.elim 0 (fun loc => loc.group + 1) - groups) 0
  | nextObject => largest.elim (.mk 0 0) fun loc => .mk loc.group (loc.object + 1)
  | none => .mk 0 0
  | absoluteStart group object => .mk group object
  | absoluteGroupEnd group object _ => .mk group object
  | absoluteRange group object _ _ => .mk group object

/-- The end of `resolve` before the Largest Location is looked at: a whole end group
ends at object 2^64-1. -/
def ownEnd : LocationFilter → Option Location
  | absoluteGroupEnd _ _ endGroup => some (.mk endGroup u64Max)
  | absoluteRange _ _ endGroup endObject => some (.mk endGroup endObject)
  | _ => Option.none

end LocationFilter

/-- The end of a FETCH, at most the Largest Location. -/
def clipEnd (stop largest : Option Location) : Option Location :=
  match largest with
  | none => stop
  | some largest => some (stop.elim largest fun stop => min stop largest)

/-- `LocationFilter.resolve`. -/
def LocationFilter.resolve (filter : LocationFilter) (largest : Option Location) (fetch : Bool) :
    LocationRange :=
  ⟨filter.resolveStart largest, if fetch then clipEnd filter.ownEnd largest else filter.ownEnd⟩

/-- `fill_range`: the filter of FILL_PARAMETERS, else the subscription's, read as for
a FETCH; nothing for an empty range. -/
def fillRange (fill subscription : Option LocationFilter) (largest : Option Location) :
    Option (Location × Location) :=
  match largest with
  | none => none
  | some largest =>
      let range := (fill.getD (subscription.getD .none)).resolve (some largest) true
      match range.stop with
      | none => none
      | some stop => if stop < range.start then none else some (range.start, stop)

end AioMoqt.Messages
