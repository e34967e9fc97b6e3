import Mathlib.Algebra.BigOperators.Group.Finset.Basic
import AioMoqt.Stats.TrackStats

/-!
# The arrivals of a track

What the loss accounting is for, told of the objects that arrived: which ids of a group were
passed over in their streams and are still out, and which groups are settled.
-/

namespace AioMoqt.Stats

open AioMoqt.Lib AioMoqt.Lib.Strided

/-- How the objects of a group are sent. -/
inductive Delivery where
  | datagrams
  | subgroups (n : Nat)
  deriving DecidableEq, Repr

/-- A group and an object id. -/
abbrev Arrival := Nat × Nat

/-- A track of complete groups of one size, with contiguous ids. -/
structure SentTrack where
  delivery : Delivery
  size : Nat
  firstGroup : Nat
  groupCount : Nat
  deriving DecidableEq, Repr

namespace SentTrack

variable (tr : SentTrack)

def groups : Finset Nat := Finset.Ico tr.firstGroup (tr.firstGroup + tr.groupCount)

/-- The subgroups that an object id is dealt out to; datagrams have one stripe. -/
def stripes : Nat :=
  match tr.delivery with
  | .datagrams => 1
  | .subgroups n => n

def subgroup (oid : Nat) : Option Nat :=
  match tr.delivery with
  | .datagrams => none
  | .subgroups n => some (oid % n)

def key (a : Arrival) : LossKey := lossKey a.1 (tr.subgroup a.2)

theorem key_eq (a : Arrival) : tr.key a = (a.1, a.2 % tr.stripes) := by
  unfold key subgroup stripes lossKey
  cases tr.delivery with
  | datagrams => rw [Nat.mod_one]; rfl
  | subgroups n => rfl

/-- The ids that arrived under a key, in order. -/
def ids (as : List Arrival) (key : LossKey) : List Nat :=
  (as.filter fun a => tr.key a = key).map Prod.snd

/-- A key's stream, as its arrivals alone tell it. -/
def gap (as : List Arrival) (key : LossKey) : Tracker := Tracker.run (tr.ids as key)

/-- The objects of a group that were passed over in their streams and have not arrived. -/
def noted (as : List Arrival) (g : Nat) : Finset Nat :=
  (Finset.range tr.size).filter fun oid => oid ∈ (tr.gap as (tr.key (g, oid))).missing

/-- The objects that are passed over and have not arrived. -/
def outstanding (as : List Arrival) : Nat := ∑ g ∈ tr.groups, (tr.noted as g).card

end SentTrack

/-! ## Orders of arrival -/

/-- The group and the id that a call tells of. -/
def ObjectCall.arrival (call : ObjectCall) : Arrival := (call.gid.getD 0, call.oid.getD 0)

/-- The calls that were made. -/
def TrackStats.run (groupLoss : Bool) (calls : List ObjectCall) : TrackStats :=
  calls.foldl TrackStats.onObject { groupLoss := groupLoss }

/-- How many objects of a group arrived. -/
def arrived (as : List Arrival) (g : Nat) : Nat := as.countP fun a => a.1 = g

namespace SentTrack

variable (tr : SentTrack)

/-- The call that an object of the track is counted with. -/
def callOf (a : Arrival) : ObjectCall where
  msg := { groupId := some (some a.1), objectId := some (some a.2) }
  sizeBytes := 0
  subgroupId := tr.subgroup a.2

/-- The call is made for an object of the track; a datagram has no subgroup. -/
structure Carries (call : ObjectCall) : Prop where
  object : call.isObject = true
  gid : call.gid = some call.arrival.1
  oid : call.oid = some call.arrival.2
  sg : call.sg = tr.subgroup call.arrival.2

/-- Objects of the track, each once, none too far behind the newest group, and not too many that
are passed over and still out. -/
structure Orders (as : List Arrival) : Prop where
  nodup : as.Nodup
  members : ∀ a ∈ as, a.1 ∈ tr.groups ∧ a.2 < tr.size
  slack : as.Pairwise fun b a => b.1 ≤ a.1 + keyReorderSlack
  cap : ∀ before, before <+: as → tr.outstanding before ≤ missingCap

def Complete (as : List Arrival) : Prop := ∀ g ∈ tr.groups, ∀ oid < tr.size, (g, oid) ∈ as

instance (as : List Arrival) : Decidable (tr.Complete as) :=
  inferInstanceAs (Decidable (∀ g ∈ tr.groups, ∀ oid < tr.size, _))

/-- The objects that the next one passes over in its stream. -/
def passed (as : List Arrival) (a : Arrival) : List Nat := (tr.gap as (tr.key a)).passed a.2

/-- The next object is a whole number of strides behind the last of its stream. -/
def WholeStride (as : List Arrival) (a : Arrival) : Prop :=
  (tr.gap as (tr.key a)).WholeStride a.2

instance (as : List Arrival) (a : Arrival) : Decidable (tr.WholeStride as a) :=
  inferInstanceAs (Decidable (Tracker.WholeStride _ _))

/-- What the next object passes over is not among what its group is recorded to fall short of. -/
def Uncounted (as : List Arrival) (a : Arrival) (t : TrackStats) : Prop :=
  ∀ short ∈ t.grpShort.get? a.1, tr.passed as a ≠ [] →
    short + (tr.noted as a.1).card + (tr.passed as a).length + arrived as a.1 ≤ tr.size

instance (as : List Arrival) (a : Arrival) (t : TrackStats) : Decidable (tr.Uncounted as a t) :=
  inferInstanceAs (Decidable (∀ short ∈ t.grpShort.get? a.1, _ ≠ [] → _ ≤ _))

/-- Calls for objects of the track in such an order, where none jumps part of a stride ahead in its
stream, and none passes objects over that a settled group has counted already. -/
structure Accountable (groupLoss : Bool) (calls : List ObjectCall) : Prop where
  carries : ∀ call ∈ calls, tr.Carries call
  orders : tr.Orders (calls.map ObjectCall.arrival)
  whole : ∀ before call, before ++ [call] <+: calls →
    tr.WholeStride (before.map ObjectCall.arrival) call.arrival
  uncounted : groupLoss = true → ∀ before call, before ++ [call] <+: calls →
    tr.Uncounted (before.map ObjectCall.arrival) call.arrival (TrackStats.run groupLoss before)

end SentTrack

/-- The groups that are open and those that are settled: closed when a group two ahead arrives, or
skipped. -/
structure GroupWindow where
  first : Option Nat := none
  newest : Nat := 0
  opened : Finset Nat := ∅
  closed : Finset Nat := ∅
  skipped : Finset Nat := ∅
  deriving DecidableEq

namespace GroupWindow

def settled (w : GroupWindow) : Finset Nat := w.closed ∪ w.skipped

/-- An object of a group has no part in the window: the group is known, or too old to be opened. -/
def Passes (w : GroupWindow) (first g : Nat) : Prop :=
  g < first ∨ g ∈ w.opened ∨ g ∈ w.settled ∨ ∃ c ∈ w.closed, g ≤ c

instance (w : GroupWindow) (first g : Nat) : Decidable (w.Passes first g) :=
  inferInstanceAs (Decidable (_ ∨ _ ∨ _ ∨ _))

/-- The groups between the newest and the next one; a wider gap is a jump. -/
def skips (w : GroupWindow) (g : Nat) : Finset Nat :=
  if g - (w.newest + 1) ≤ settledCap then Finset.Ioo w.newest g else ∅

def closing (w : GroupWindow) (g : Nat) : Finset Nat := w.opened.filter fun c => c + 2 ≤ g

/-- An object of the group arrives. -/
def step (w : GroupWindow) (g : Nat) : GroupWindow :=
  match w.first with
  | none => { first := some g, newest := g, opened := {g} }
  | some first =>
      if w.Passes first g then w
      else if g ≤ w.newest then { w with opened := insert g w.opened }
      else
        { w with
          newest := g
          opened := insert g (w.opened \ w.closing g)
          closed := w.closed ∪ w.closing g
          skipped := w.skipped ∪ w.skips g }

end GroupWindow

/-- The window that the arrivals leave. -/
def window (as : List Arrival) : GroupWindow := as.foldl (fun w a => w.step a.1) {}

/-- The size of the groups is learned before one of them, other than the first, is settled. -/
def SentTrack.SizeLearned (tr : SentTrack) (as : List Arrival) : Prop :=
  ∀ before, before <+: as →
    (∃ g ∈ (window before).settled, (window before).first ≠ some g) →
      ∃ b ∈ before, b.2 + 1 = tr.size

instance (tr : SentTrack) (as : List Arrival) : Decidable (tr.SizeLearned as) :=
  decidable_of_iff (∀ before ∈ as.inits, (∃ g ∈ (window before).settled,
    (window before).first ≠ some g) → ∃ b ∈ before, b.2 + 1 = tr.size) <| by
      unfold SentTrack.SizeLearned
      simp only [List.mem_inits]

/-- What is lost of a group: all that did not arrive, once it is settled and not the first, and
what was passed over otherwise. -/
def SentTrack.lostOf (tr : SentTrack) (as : List Arrival) (g : Nat) : Nat :=
  if g ∈ (window as).settled ∧ (window as).first ≠ some g then tr.size - arrived as g
  else (tr.noted as g).card

theorem window_concat (as : List Arrival) (a : Arrival) :
    window (as ++ [a]) = (window as).step a.1 := List.foldl_concat _ _ _ _

end AioMoqt.Stats
