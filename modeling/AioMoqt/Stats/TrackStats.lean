import Mathlib.Algebra.BigOperators.Group.List.Basic
import Mathlib.Algebra.Ring.Int.Defs
import AioMoqt.Lib.Recent
import AioMoqt.Lib.Strided

/-!
# Loss accounting of a received track

`TrackStats` of `utils/stats.py`, the part that counts lost objects: the gaps in a subgroup
stream, with a stride that is learned from it, and the objects that are missing from whole groups.
-/

namespace AioMoqt.Stats

open AioMoqt.Lib AioMoqt.Lib.Strided

/-- `KEY_REORDER_SLACK`. -/
def keyReorderSlack : Nat := 64

/-- `KEY_PRUNE_EVERY`. -/
def keyPruneEvery : Nat := 16

/-- `_MISSING_CAP`. -/
def missingCap : Nat := 65536

/-- `_SETTLED_CAP`. -/
def settledCap : Nat := 1024

/-- `ObjectStatus`. -/
inductive ObjectStatus where
  | normal
  | doesNotExist
  | endOfGroup
  | endOfTrack
  deriving DecidableEq, Repr

/-- The attributes that `on_object` reads of a message; `none` where it does not have one. -/
structure StatsMessage where
  status : Option (Option ObjectStatus) := none
  groupId : Option (Option Nat) := none
  objectId : Option (Option Nat) := none
  subgroupId : Option (Option Nat) := none
  deriving DecidableEq, Repr

/-- What `on_object` is called with; the receive time has no part in loss. -/
structure ObjectCall where
  msg : StatsMessage
  sizeBytes : Nat
  groupId : Option Nat := none
  subgroupId : Option Nat := none
  deriving DecidableEq, Repr

namespace ObjectCall

/-- A delivery marker is not an object. -/
def isObject (call : ObjectCall) : Bool :=
  match call.msg.status.getD none with
  | none => true
  | some status => status = .normal

def gid (call : ObjectCall) : Option Nat := call.msg.groupId.getD call.groupId

def oid (call : ObjectCall) : Option Nat := call.msg.objectId.getD none

/-- Datagrams carry no subgroup; streams key per subgroup. -/
def hasSg (call : ObjectCall) : Bool := call.msg.subgroupId.isSome || call.subgroupId.isSome

def sg (call : ObjectCall) : Option Nat :=
  if call.hasSg then
    match call.subgroupId with
    | none => call.msg.subgroupId.getD none
    | some subgroupId => some subgroupId
  else none

end ObjectCall

/-- A group and a subgroup; datagrams count as subgroup 0. -/
abbrev LossKey := Nat × Nat

def lossKey (gid : Nat) (sg : Option Nat) : LossKey := (gid, sg.getD 0)

/-- `_lk_g`, `_lk_s`, `_lk_prev` and `_lk_stride`: the state of the key that the last object had. -/
structure LiveKey where
  g : Nat
  s : Option Nat
  prev : Nat
  stride : Option Nat
  deriving DecidableEq, Repr

def LiveKey.key (l : LiveKey) : LossKey := lossKey l.g l.s

/-- The counters and the bookkeeping of loss.  `groupLoss` says whether `_grp_rx` is a dictionary,
and `live` is empty where `_lk_g` is -1. -/
structure TrackStats where
  minimal : Bool := false
  groupLoss : Bool := false
  totalObjects : Nat := 0
  totalBytes : Nat := 0
  totalLost : Int := 0
  totalOoo : Nat := 0
  totalGroups : Nat := 0
  recentGroups : Finset Nat := ∅
  newestGid : Int := -1
  keyFloor : Int := -1
  pruneAt : Int := 0
  sawDatagram : Bool := false
  expected : Dict LossKey Nat := .empty
  stride : Dict LossKey Nat := .empty
  missing : Dict LossKey (Finset Nat) := .empty
  missingN : Int := 0
  live : Option LiveKey := none
  grpRx : Dict Nat Nat := .empty
  grpGap : Dict Nat Int := .empty
  grpShort : Dict Nat Nat := .empty
  grpSize : Nat := 0
  grpFirst : Option Nat := none
  grpMax : Int := -1
  grpFloor : Int := -1

namespace TrackStats

/-- `_flush_key`. -/
def flushKey (t : TrackStats) : TrackStats :=
  match t.live with
  | none => t
  | some l =>
      { t with
        expected := t.expected.insert l.key l.prev
        stride := match l.stride with
          | none => t.stride
          | some stride => t.stride.insert l.key stride
        live := none }

/-- `_prune_keys`. -/
def pruneKeys (t : TrackStats) (floor : Int) : TrackStats :=
  if floor ≤ t.keyFloor then t
  else
    let t := { t with keyFloor := floor }.flushKey
    let dropped := t.missing.entries.filter fun entry => (entry.1.1 : Int) < floor
    { t with
      expected := t.expected.filterKeys fun key => floor ≤ key.1
      stride := t.stride.filterKeys fun key => floor ≤ key.1
      missing := t.missing.filterKeys fun key => floor ≤ key.1
      missingN := t.missingN - (dropped.map fun entry => (entry.2.card : Int)).sum
      recentGroups := t.recentGroups.filter fun g => floor ≤ g }

/-- The group count, and with it what is forgotten. -/
def noteGroup (t : TrackStats) (gid : Nat) : TrackStats :=
  if gid ∉ t.recentGroups ∧ t.keyFloor ≤ (gid : Int) then
    let t :=
      { t with recentGroups := insert gid t.recentGroups, totalGroups := t.totalGroups + 1 }
    if t.newestGid < (gid : Int) then
      let t := { t with newestGid := gid }
      if t.pruneAt ≤ (gid : Int) then
        { t.pruneKeys (gid - keyReorderSlack) with pruneAt := gid + keyPruneEvery }
      else t
    else t
  else t

/-- Oldest keys first, until at most `_MISSING_CAP` ids are left. -/
def evictMissing : List (LossKey × Finset Nat) → TrackStats → TrackStats
  | [], t => t
  | (key, ms) :: entries, t =>
      if missingCap < t.missingN then
        evictMissing entries
          { t with missing := t.missing.erase key, missingN := t.missingN - ms.card }
      else t

/-- `_note_missing`. -/
def noteMissing (t : TrackStats) (key : LossKey) (lo hi stride : Nat) : TrackStats :=
  let ids := strideRange lo hi stride
  -- too large to track: stays lost
  if missingCap < ids.length then t
  else
    let before := (t.missing.get? key).getD ∅
    let ms := before ∪ ids.toFinset
    let t :=
      { t with
        missing := t.missing.insert key ms
        missingN := t.missingN + (ms.card - before.card) }
    evictMissing t.missing.entries t

/-- `_recover`. -/
def recover (t : TrackStats) (key : LossKey) (oid : Nat) : TrackStats :=
  match t.missing.get? key with
  | none => t
  | some ms =>
      if oid ∈ ms then
        { t with
          missing := t.missing.insert key (ms.erase oid)
          missingN := t.missingN - 1
          totalLost := t.totalLost - 1
          grpGap := match t.grpGap.get? key.1 with
            | none => t.grpGap
            | some gap => t.grpGap.insert key.1 (gap - 1) }
      else t

/-- The oldest records go where there are more than `_SETTLED_CAP`. -/
def trimSettled (t : TrackStats) : TrackStats :=
  { t with grpShort := t.grpShort.keepNewest settledCap }

/-- `_settle_group`. -/
def settleGroup (t : TrackStats) (gid : Nat) : TrackStats :=
  match t.grpRx.get? gid with
  | none => t
  | some n =>
      let gap := (t.grpGap.get? gid).getD 0
      let short := if t.grpFirst = some gid then 0 else ((t.grpSize : Int) - n - gap).toNat
      let t :=
        { t with
          grpRx := t.grpRx.erase gid
          grpGap := t.grpGap.erase gid
          totalLost := t.totalLost + short
          grpShort := t.grpShort.insert gid short }.trimSettled
      if t.grpFloor < (gid : Int) then { t with grpFloor := gid } else t

/-- `_settle_skipped`: groups lo..hi-1 never arrived. -/
def settleSkipped (t : TrackStats) (lo hi : Nat) : TrackStats :=
  -- a group-id jump, not loss
  if settledCap < hi - lo then t
  else
    ((List.range' lo (hi - lo)).foldl (fun t g =>
      { t with
        grpShort := t.grpShort.insert g t.grpSize
        totalLost := t.totalLost + t.grpSize }) t).trimSettled

/-- A group that is seen for the first time. -/
def openGroup (t : TrackStats) (gid : Nat) : TrackStats :=
  let t := { t with grpRx := t.grpRx.insert gid 1 }
  if t.grpMax < (gid : Int) then
    let t := if 0 ≤ t.grpMax ∧ t.grpMax < (gid : Int) - 1 ∧ t.grpSize ≠ 0 then
        t.settleSkipped (t.grpMax + 1).toNat gid
      else t
    let t := { t with grpMax := gid }
    (t.grpRx.keys.filter fun g => g + 2 ≤ gid).foldl settleGroup t
  else t

/-- `_group_object`. -/
def groupObject (t : TrackStats) (gid oid : Nat) (sg : Option Nat) : TrackStats :=
  let t := if t.grpSize ≤ oid then { t with grpSize := oid + 1 } else t
  match t.grpRx.get? gid with
  | some n => { t with grpRx := t.grpRx.insert gid (n + 1) }
  | none =>
      match t.grpShort.get? gid with
      | some short =>
          let inGap : Bool := oid ∈ (t.missing.get? (lossKey gid sg)).getD ∅
          if 0 < short ∧ inGap = false then
            { t with
              grpShort := t.grpShort.insert gid (short - 1)
              totalLost := t.totalLost - 1 }
          else t
      | none =>
          if (gid : Int) ≤ t.grpFloor then t
          else
            match t.grpFirst with
            | none => { t with grpFirst := some gid }.openGroup gid
            | some first => if gid < first then t else t.openGroup gid

/-- An object, counted for its group. -/
def countGroup (t : TrackStats) (gid oid : Nat) (sg : Option Nat) : TrackStats :=
  if t.groupLoss then
    match t.grpRx.get? gid with
    | some n =>
        if oid < t.grpSize then { t with grpRx := t.grpRx.insert gid (n + 1) }
        else t.groupObject gid oid sg
    | none => t.groupObject gid oid sg
  else t

/-- The state of a key, from the slots or the dictionaries. -/
def loadKey (t : TrackStats) (gid : Nat) (sg : Option Nat) :
    TrackStats × Option Nat × Option Nat :=
  let miss :=
    let t := t.flushKey
    (t, t.expected.get? (lossKey gid sg), t.stride.get? (lossKey gid sg))
  match t.live with
  | none => miss
  | some l => if gid = l.g ∧ sg = l.s then (t, some l.prev, l.stride) else miss

/-- The objects of a gap are lost, and counted so for their group. -/
def countLost (t : TrackStats) (gid lost : Nat) : TrackStats :=
  { t with
    totalLost := t.totalLost + lost
    grpGap :=
      if t.groupLoss then t.grpGap.insert gid ((t.grpGap.get? gid).getD 0 + lost) else t.grpGap }

/-- A gap behind the last object of the key, or an object that is late. -/
def checkGap (t : TrackStats) (key : LossKey) (oid prev stride : Nat) : TrackStats :=
  if prev + stride < oid then
    let lost := (oid - prev - stride) / stride
    (t.countLost key.1 lost).noteMissing key (prev + stride) oid stride
  else if oid < prev then
    { t with totalOoo := t.totalOoo + 1 }.recover key oid
  else t

/-- The gap accounting of an object, in the stream of its key. -/
def checkStream (t : TrackStats) (gid oid : Nat) (sg : Option Nat) : TrackStats :=
  let loaded := t.loadKey gid sg
  let t := loaded.1
  match loaded.2.1 with
  | none => { t with live := some ⟨gid, sg, oid, loaded.2.2⟩ }
  | some prev =>
      let stride := learnStride loaded.2.2 prev oid
      let t := match stride with
        | none => t
        | some stride => if 0 < stride then t.checkGap (lossKey gid sg) oid prev stride else t
      { t with live := some ⟨gid, sg, if prev < oid then oid else prev, stride⟩ }

/-- `on_object`, without what it keeps of latency, jitter and rates. -/
def onObject (t : TrackStats) (call : ObjectCall) : TrackStats :=
  if call.isObject then
    let t :=
      { t with
        totalObjects := t.totalObjects + 1
        totalBytes := t.totalBytes + call.sizeBytes }
    if t.minimal then t
    else
      match call.gid with
      | none => t
      | some gid =>
          let t := t.noteGroup gid
          match call.oid with
          | none => t
          | some oid =>
              let t := if call.hasSg then t else { t with sawDatagram := true }
              (t.countGroup gid oid call.sg).checkStream gid oid call.sg
  else t

end TrackStats

end AioMoqt.Stats
