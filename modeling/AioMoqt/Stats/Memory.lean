import AioMoqt.Lib.Tally
import AioMoqt.Stats.TrackStats

/-!
# What the statistics of a track hold

The module's documentation bounds the memory that the loss accounting takes: keys of groups near
the newest one, so many ids counted missing, and so many records of settled groups.  Which calls
keep to these bounds is told of the state before each call.
-/

namespace AioMoqt.Stats

open AioMoqt.Lib AioMoqt.Lib.Strided

/-- `KEY_HORIZON`. -/
def keyHorizon : Nat := keyReorderSlack + keyPruneEvery

/-- The group of an object, where it has one. -/
def ObjectCall.seenGroup (call : ObjectCall) : Option Nat := if call.isObject then call.gid else none

/-- The newest group of the objects so far; -1 before the first. -/
def newestSeen (calls : List ObjectCall) : Int :=
  calls.foldl (fun newest call => call.seenGroup.elim newest fun gid => max newest gid) (-1)

namespace TrackStats

/-- The statistics that calls lead to. -/
def after (minimal groupLoss : Bool) (calls : List ObjectCall) : TrackStats :=
  calls.foldl onObject { minimal := minimal, groupLoss := groupLoss }

/-- The key in the slots. -/
def liveKey (t : TrackStats) : Option LossKey := t.live.map LiveKey.key

/-- The group is the newest one or at most the horizon behind it. -/
def Near (newest : Int) (g : Nat) : Prop := (g : Int) ≤ newest ∧ newest ≤ g + keyHorizon

instance (newest : Int) (g : Nat) : Decidable (Near newest g) := inferInstanceAs (Decidable (_ ∧ _))

/-- What is held is bounded. -/
structure Bounded (newest : Int) (t : TrackStats) : Prop where
  expected : ∀ key ∈ t.expected.keys, t.liveKey ≠ some key → Near newest key.1
  stride : ∀ key ∈ t.stride.keys, t.liveKey ≠ some key → Near newest key.1
  missing : ∀ key ∈ t.missing.keys, t.liveKey ≠ some key → Near newest key.1
  recentGroups : ∀ g ∈ t.recentGroups, Near newest g
  missingN : t.missingN = t.missing.total Finset.card
  missingN_le : t.missingN ≤ missingCap
  grpShort : t.grpShort.size ≤ settledCap
  grpGap : ∀ g ∈ t.grpGap.keys, g ∈ t.grpRx.keys

/-! ## The calls that keep to it -/

/-- Something of a key is held, in the slots or in the dictionaries. -/
def Holds (t : TrackStats) (key : LossKey) : Prop := key ∈ t.expected.keys ∨ t.liveKey = some key

/-- The group is new enough for the keys of old groups to be dropped with it. -/
def Prunes (t : TrackStats) (gid : Nat) : Prop := t.newestGid < gid ∧ t.pruneAt ≤ gid

instance (t : TrackStats) (gid : Nat) : Decidable (t.Prunes gid) :=
  inferInstanceAs (Decidable (_ ∧ _))

/-- The key in the slots behind the call. -/
def nextKey (t : TrackStats) (call : ObjectCall) (gid : Nat) : Option LossKey :=
  match call.oid with
  | none => t.liveKey
  | some _ => some (lossKey gid call.sg)

/-- The group is not open, and an object of it does not open it: it is settled, too old, or before
the first. -/
def Refuses (t : TrackStats) (gid : Nat) : Prop :=
  gid ∉ t.grpRx.keys ∧
    (gid ∈ t.grpShort.keys ∨ (gid : Int) ≤ t.grpFloor ∨ ∃ first ∈ t.grpFirst, gid < first)

/-- The object is more than a stride ahead in its stream. -/
def PassesOver (t : TrackStats) (gid : Nat) (sg : Option Nat) (oid : Nat) : Prop :=
  ∃ prev ∈ (t.loadKey gid sg).2.1, ∃ stride ∈ learnStride (t.loadKey gid sg).2.2 prev oid,
    0 < stride ∧ prev + stride < oid

/-- An object with which no keys are dropped leaves no key but its own behind the horizon, and
where the groups are counted one of a group that is not open passes nothing over. -/
structure Keeps (t : TrackStats) (call : ObjectCall) : Prop where
  horizon : ∀ gid ∈ call.seenGroup, ¬ t.Prunes gid → ∀ key, t.Holds key →
    t.nextKey call gid ≠ some key → max t.newestGid gid ≤ key.1 + keyHorizon
  gaps : ∀ gid ∈ call.seenGroup, ∀ oid ∈ call.oid, t.groupLoss = true → t.Refuses gid →
    ¬ t.PassesOver gid call.sg oid

end TrackStats

end AioMoqt.Stats
