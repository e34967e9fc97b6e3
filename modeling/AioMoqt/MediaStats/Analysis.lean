import Mathlib.Data.Finset.Insert
import AioMoqt.Lib.Overdue
import AioMoqt.MediaStats.Playout

/-!
# Delivery accounting of a media track

`TrackAnalysis` of `utils/media_stats.py`: which objects and groups were observed, which are
missing and which of them are lost.  Times are in microseconds; the sampled and averaged times
(latency, jitter, keyframe intervals) are left out.
-/

namespace AioMoqt.MediaStats

open AioMoqt.Lib

/-- `_HOLE_CAP`. -/
def holeCap : Nat := 4096

/-- `_SCAN_EVERY_US`. -/
def scanEveryUs : Int := 100000

/-- `_Group`. -/
structure Group where
  seen : Finset Nat := ∅
  maxOid : Option Nat := none
  holes : Dict Nat Miss := .empty
  ended : Bool := false
  eogOid : Option Nat := none
  lastRx : Int
  joined : Bool
  final : Bool := false
  finEnds : Bool := false
  truncated : Bool := false

/-- The ids of a range that become holes: the last `_HOLE_CAP` of it, but those that were seen. -/
def Group.newHoles (g : Group) (lo hi : Nat) : List Nat :=
  let tracked := min (hi - lo) holeCap
  (List.range' (hi - tracked) tracked).filter fun oid => oid ∉ g.seen ∧ oid ∉ g.holes.keys

/-- `_COUNTERS`. -/
structure Counters where
  objects : Int := 0
  bytes : Int := 0
  groups : Int := 0
  lost : Int := 0
  lostGroups : Int := 0
  reorders : Int := 0
  dups : Int := 0
  late : Int := 0
  underruns : Int := 0
  stallUs : Int := 0
  resets : Int := 0
  deriving DecidableEq, Repr

/-- The counters and the bookkeeping of one track; `groupOf` is `_groups`, and the queues hold when
a hole or a gap was noticed and of what. -/
structure TrackAnalysis where
  cushionUs : Int
  timed : Bool := false
  objects : Nat := 0
  bytes : Nat := 0
  groups : Nat := 0
  dups : Nat := 0
  lost : Int := 0
  pending : Int := 0
  reorders : Nat := 0
  lateReorders : Nat := 0
  lostGroups : Int := 0
  partialGroups : Nat := 0
  truncatedGroups : Nat := 0
  missingEog : Nat := 0
  resets : Nat := 0
  resetCodes : Dict Nat Nat := .empty
  firstRx : Option Int := none
  lastRx : Option Int := none
  groupOf : Dict Nat Group := .empty
  maxGid : Option Nat := none
  gaps : Dict Nat Miss := .empty
  holesQ : List (Int × Nat × Nat) := []
  gapsQ : List (Int × Nat) := []
  lastScan : Int := 0
  settleMaxUs : Option Int := none
  keyBytes : Nat := 0
  keyN : Nat := 0
  pBytes : Nat := 0
  pN : Nat := 0
  playout : Playout
  ivBase : Counters := {}

/-- What `observe` is called with for one media object. -/
structure Observed where
  gid : Nat
  oid : Nat
  size : Nat
  recvUs : Int
  ts : Option Int := none
  timescale : Option Int := none
  endsGroup : Bool := false
  lastInGroup : Bool := false
  priorGap : Nat := 0
  deriving DecidableEq, Repr

/-- The media time in microseconds; nothing where the division fails. -/
def Observed.mUs (o : Observed) (ts : Int) : Option Int :=
  match o.timescale with
  | none => some ts
  | some timescale =>
      if timescale = 1000000 then some ts
      else if timescale = 0 then none
      else some ((ts * 1000000).fdiv timescale)

namespace TrackAnalysis

/-- An analysis before the first object. -/
def start (cushionUs : Int) : TrackAnalysis := { cushionUs, playout := { cushionUs } }

/-- `_counters`. -/
def counters (t : TrackAnalysis) : Counters where
  objects := t.objects
  bytes := t.bytes
  groups := t.groups
  lost := t.lost
  lostGroups := t.lostGroups
  reorders := t.reorders
  dups := t.dups
  late := t.playout.late
  underruns := t.playout.underruns
  stallUs := t.playout.stallUs
  resets := t.resets

/-- The record of a group as it is now. -/
def put (t : TrackAnalysis) (gid : Nat) (g : Group) : TrackAnalysis :=
  { t with groupOf := t.groupOf.insert gid g }

/-! ## Continuity -/

/-- `_reordered`: a missing object or group arrived. -/
def reordered (t : TrackAnalysis) (miss : Miss) (now : Int) : TrackAnalysis :=
  let settle := now - miss.detect
  { t with
    reorders := t.reorders + 1
    lateReorders := if miss.lost then t.lateReorders + 1 else t.lateReorders
    settleMaxUs := some (t.settleMaxUs.elim settle fun most => max most settle) }

/-- A missing object is no longer missing. -/
def unlose (t : TrackAnalysis) (miss : Miss) : TrackAnalysis :=
  if miss.lost then { t with lost := t.lost - 1 } else { t with pending := t.pending - 1 }

/-- A missing group is no longer missing. -/
def unloseGroup (t : TrackAnalysis) (miss : Miss) : TrackAnalysis :=
  if miss.lost then { t with lostGroups := t.lostGroups - 1 }
  else { t with pending := t.pending - 1 }

/-- `_new_group`. -/
def newGroup (t : TrackAnalysis) (gid : Nat) (joined : Bool) (now : Int) : TrackAnalysis × Group :=
  let g : Group := { joined, lastRx := now }
  ({ t.put gid g with groups := t.groups + 1 }, g)

/-- Start tracking a group behind the newest: those between are missing. -/
def skipGroups (t : TrackAnalysis) (maxGid gid : Nat) (now : Int) : TrackAnalysis :=
  let missing := gid - maxGid - 1
  let tracked := min missing holeCap
  let skipped := List.range' (gid - tracked) tracked
  { t with
    lostGroups := t.lostGroups + (missing - tracked : Nat)
    gaps := t.gaps.watch now skipped
    gapsQ := t.gapsQ ++ skipped.map fun x => (now, x)
    pending := t.pending + tracked
    maxGid := some gid }

/-- `_open_group`: start tracking a group, with the gap record if it fills a gap.  Nothing if it
predates the subscription or has already been let go. -/
def openGroup (t : TrackAnalysis) (gid : Nat) (now : Int) (oid : Nat) :
    Option ((TrackAnalysis × Group) × Option Miss) :=
  match t.maxGid with
  | none => some ({ t with maxGid := some gid }.newGroup gid (0 < oid) now, none)
  | some maxGid =>
      match t.gaps.get? gid with
      | some gap =>
          some (({ t with gaps := t.gaps.erase gid }.unloseGroup gap).newGroup gid false now,
            some gap)
      | none =>
          if gid ≤ maxGid then none
          else some ((t.skipGroups maxGid gid now).newGroup gid false now, none)

/-- `_declare_absent`: the groups before this one that never exist. -/
def declareAbsent (t : TrackAnalysis) (gid n : Nat) : TrackAnalysis :=
  (List.range' (gid - n) (gid - (gid - n))).foldl
    (fun t x =>
      match t.gaps.get? x with
      | none => t
      | some gap => { t with gaps := t.gaps.erase x }.unloseGroup gap)
    t

/-- `_add_holes`, with the group as it is now. -/
def addHoles (t : TrackAnalysis) (gid : Nat) (g : Group) (lo hi : Nat) (now : Int) :
    TrackAnalysis :=
  let holes := g.newHoles lo hi
  let t := t.put gid { g with holes := g.holes.watch now holes }
  { t with
    lost := t.lost + (hi - lo - min (hi - lo) holeCap : Nat)
    holesQ := t.holesQ ++ holes.map fun oid => (now, gid, oid)
    pending := t.pending + holes.length }

/-- The group that is heard of, which may open it, with the gap record if it fills a gap.  Nothing
where it is outside the tracked range. -/
def heard (t : TrackAnalysis) (gid : Nat) (now : Int) (oid : Nat) :
    Option ((TrackAnalysis × Group) × Option Miss) :=
  match t.groupOf.get? gid with
  | some g => some ((t.put gid { g with lastRx := now }, { g with lastRx := now }), none)
  | none => t.openGroup gid now oid

/-- An object id in the group it belongs to, and whether it is new there. -/
def place (t : TrackAnalysis) (gid : Nat) (g : Group) (oid : Nat) (now : Int) :
    TrackAnalysis × Bool :=
  if oid ∈ g.seen then ({ t with dups := t.dups + 1 }, false)
  else
    let g := { g with seen := insert oid g.seen }
    match g.holes.get? oid with
    | some hole =>
        (((t.put gid { g with holes := g.holes.erase oid }).reordered hole now).unlose hole, true)
    | none =>
        match g.maxOid with
        | none =>
            let g := { g with maxOid := some oid }
            (if g.joined then t.put gid g else t.addHoles gid g 0 oid now, true)
        | some maxOid =>
            -- below it and never a hole: before the join point
            if maxOid < oid then
              (t.addHoles gid { g with maxOid := some oid } (maxOid + 1) oid now, true)
            else (t.put gid g, true)

/-- `_continuity`: account one object id; false for a duplicate. -/
def continuity (t : TrackAnalysis) (gid oid : Nat) (now : Int) : TrackAnalysis × Bool :=
  match t.heard gid now oid with
  | none => (t, true)
  | some ((t, g), gap) => (gap.elim t fun gap => t.reordered gap now).place gid g oid now

/-! ## The clock -/

/-- A hole that is overdue is declared lost. -/
def declareHole (t : TrackAnalysis) (gid oid : Nat) : TrackAnalysis :=
  match t.groupOf.get? gid with
  | none => t
  | some g =>
      match g.holes.get? oid with
      | none => t
      | some hole =>
          if hole.lost then t
          else
            { t.put gid { g with holes := g.holes.insert oid { hole with lost := true } } with
              pending := t.pending - 1
              lost := t.lost + 1 }

/-- A gap that is overdue is declared lost. -/
def declareGap (t : TrackAnalysis) (gid : Nat) : TrackAnalysis :=
  match t.gaps.get? gid with
  | none => t
  | some gap =>
      if gap.lost then t
      else
        { t with
          gaps := t.gaps.insert gid { gap with lost := true }
          pending := t.pending - 1
          lostGroups := t.lostGroups + 1 }

/-- `_judge`. -/
def judge (t : TrackAnalysis) (g : Group) : TrackAnalysis :=
  let t := if g.truncated then { t with truncatedGroups := t.truncatedGroups + 1 } else t
  if g.joined then t
  else
    let t :=
      if g.holes.size ≠ 0 ∨ g.truncated then { t with partialGroups := t.partialGroups + 1 }
      else t
    if ¬ g.ended ∧ ¬ g.truncated then { t with missingEog := t.missingEog + 1 } else t

/-- A group that is not the newest is final when it was not heard of for a cushion. -/
def settle (t : TrackAnalysis) (now : Int) (force : Bool) (gid : Nat) (g : Group) :
    TrackAnalysis × Group :=
  if ¬ g.final ∧ t.maxGid ≠ some gid ∧ (force ∨ t.cushionUs < now - g.lastRx) then
    let g := { g with final := true }
    ((t.put gid g).judge g, g)
  else (t, g)

/-- One group's turn in `_finalize`. -/
def review (now : Int) (force : Bool) (t : TrackAnalysis) (gid : Nat) : TrackAnalysis :=
  match t.groupOf.get? gid with
  | none => t
  | some g =>
      let (t, g) := t.settle now force gid g
      if g.final ∧ 4 * t.cushionUs < now - g.lastRx then
        { t with groupOf := t.groupOf.erase gid }
      else t

/-- `_finalize`: final groups and declared gaps are let go after four cushions. -/
def finalize (t : TrackAnalysis) (now : Int) (force : Bool) : TrackAnalysis :=
  let t := t.groupOf.keys.foldl (review now force) { t with lastScan := now }
  { t with
    gaps := t.gaps.filter fun _ gap => ¬ (gap.lost ∧ 4 * t.cushionUs < now - gap.detect) }

/-- The part of `_tick` that declares overdue holes lost. -/
def declareHoles (t : TrackAnalysis) (cut : Int) : TrackAnalysis :=
  let t := (t.holesQ.takeWhile fun entry => entry.1 ≤ cut).foldl
    (fun t entry => t.declareHole entry.2.1 entry.2.2) t
  { t with holesQ := t.holesQ.dropWhile fun entry => entry.1 ≤ cut }

/-- The part of `_tick` that declares overdue gaps lost. -/
def declareGaps (t : TrackAnalysis) (cut : Int) : TrackAnalysis :=
  let t := (t.gapsQ.takeWhile fun entry => entry.1 ≤ cut).foldl
    (fun t entry => t.declareGap entry.2) t
  { t with gapsQ := t.gapsQ.dropWhile fun entry => entry.1 ≤ cut }

/-- `_tick`. -/
def tick (t : TrackAnalysis) (now : Int) : TrackAnalysis :=
  let cut := now - t.cushionUs
  let t := (t.declareHoles cut).declareGaps cut
  if scanEveryUs ≤ now - t.lastScan then t.finalize now false else t

/-! ## What happens to a track -/

/-- The counters of an object that is no duplicate, and what it says of its group. -/
def count (t : TrackAnalysis) (o : Observed) : TrackAnalysis :=
  let t := { t with objects := t.objects + 1, bytes := t.bytes + o.size }
  let t :=
    match t.groupOf.get? o.gid with
    | none => t
    | some g =>
        let g := { g with finEnds := g.finEnds || o.endsGroup }
        t.put o.gid (if o.lastInGroup then { g with ended := true, eogOid := some (o.oid + 1) } else g)
  if o.oid = 0 then { t with keyBytes := t.keyBytes + o.size, keyN := t.keyN + 1 }
  else { t with pBytes := t.pBytes + o.size, pN := t.pN + 1 }

/-- The object's part in the playout model, where it has a timestamp. -/
def time (t : TrackAnalysis) (o : Observed) : TrackAnalysis :=
  match o.ts with
  | none => t
  | some ts =>
      let t := { t with timed := true }
      match o.mUs ts with
      | none => t
      | some mUs => { t with playout := t.playout.playout o.oid mUs o.recvUs }

/-- `observe`. -/
def observe (t : TrackAnalysis) (o : Observed) : TrackAnalysis :=
  let t := t.tick o.recvUs
  let t := { t with firstRx := some (t.firstRx.getD o.recvUs), lastRx := some o.recvUs }
  match t.continuity o.gid o.oid o.recvUs with
  | (t, false) => t
  | (t, true) =>
      let t := if o.priorGap = 0 then t else t.declareAbsent o.gid o.priorGap
      (t.count o).time o

/-- `end_group`: no object at or past this one exists. -/
def endGroup (t : TrackAnalysis) (gid eogOid : Nat) (recvUs : Int) : TrackAnalysis :=
  let t := t.tick recvUs
  match t.heard gid recvUs eogOid with
  | none => t
  | some ((t, g), _) =>
      let g := { g with ended := true, eogOid := some eogOid }
      let last :=
        if 0 < eogOid then some (max (g.maxOid.getD 0) (eogOid - 1)) else g.maxOid
      match g.maxOid with
      | some maxOid => t.addHoles gid { g with maxOid := last } (maxOid + 1) eogOid recvUs
      | none =>
          if g.joined then t.put gid { g with maxOid := last }
          else t.addHoles gid { g with maxOid := last } 0 eogOid recvUs

/-- `stream_end`. -/
def streamEnd (t : TrackAnalysis) (gid : Nat) (clean : Bool) (resetCode : Nat) : TrackAnalysis :=
  let g := t.groupOf.get? gid
  if clean then
    match g with
    | none => t
    | some g => if g.finEnds then t.put gid { g with ended := true } else t
  else
    let t :=
      { t with
        resets := t.resets + 1
        resetCodes := t.resetCodes.insert resetCode ((t.resetCodes.get? resetCode).getD 0 + 1) }
    match g with
    | none => t
    | some g => t.put gid { g with truncated := true }

/-- `interval`: the counters since the last call. -/
def interval (t : TrackAnalysis) (nowUs : Int) : TrackAnalysis × Counters :=
  let t := t.tick nowUs
  let c := t.counters
  let d : Counters :=
    { objects := c.objects - t.ivBase.objects
      bytes := c.bytes - t.ivBase.bytes
      groups := c.groups - t.ivBase.groups
      lost := c.lost - t.ivBase.lost
      lostGroups := c.lostGroups - t.ivBase.lostGroups
      reorders := c.reorders - t.ivBase.reorders
      dups := c.dups - t.ivBase.dups
      late := c.late - t.ivBase.late
      underruns := c.underruns - t.ivBase.underruns
      stallUs := c.stallUs - t.ivBase.stallUs
      resets := c.resets - t.ivBase.resets }
  ({ t with ivBase := c, playout := { t.playout with ivBuf := [] } }, d)

/-- `summary`, whose rows are the counters. -/
def summary (t : TrackAnalysis) (nowUs : Int) : TrackAnalysis :=
  (t.tick nowUs).finalize nowUs true

end TrackAnalysis

end AioMoqt.MediaStats
