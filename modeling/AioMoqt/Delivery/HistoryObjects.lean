import AioMoqt.Delivery.History

/-!
# The objects behind a history

`ObjectHistory` as it runs: its groups are objects with an identity, its table maps a
Group ID to one of them, and `_last` and `_oldest` point at two of them beside the table.
An operation that raises has no result.
-/

namespace AioMoqt.Delivery

open AioMoqt.Lib AioMoqt.Messages

variable {σ : Type}

/-- `discard`: the group's Locations then read as absent, not as lost. -/
def ObjectHistory.discard (h : ObjectHistory σ) (groupId : Nat) : ObjectHistory σ :=
  match h.groups.get? groupId with
  | none => h
  | some grp => { h with groups := h.groups.erase groupId, bytes := h.bytes - grp.bytes }

/-- `ObjectHistory` with its pointers.  `heap` has the group objects by identity, of which
those below `next` were made. -/
structure HistoryObjects (σ : Type) where
  maxBytes : Nat
  slack : Option Nat := none
  heap : Nat → HeldGroup σ := fun _ => { priority := 0 }
  next : Nat := 0
  groups : Dict Nat Nat := .empty
  bytes : Int := 0
  through : Option Location := none
  lastId : Option Nat := none
  last : Option Nat := none
  oldestId : Option Nat := none
  oldest : Option Nat := none

namespace HistoryObjects

variable (self : HistoryObjects σ)

/-- `_slack`. -/
def slackBytes : Nat := self.slack.getD (self.maxBytes / 8)

/-- The group of an add, made if it is new, becomes `_last`. -/
def groupFor (groupId priority : Nat) : HistoryObjects σ :=
  if self.lastId = some groupId then self
  else match self.groups.get? groupId with
    | some grp => { self with lastId := some groupId, last := some grp }
    | none =>
        { self with
          heap := Function.update self.heap self.next { priority }
          next := self.next + 1
          groups := self.groups.insert groupId self.next
          lastId := some groupId
          last := some self.next
          oldestId := if self.oldest = none then some groupId else self.oldestId
          oldest := if self.oldest = none then some self.next else self.oldest }

/-- The record of an object joins a group. -/
def appendTo (grp : Nat) (obj : Added σ) : HistoryObjects σ :=
  { self with
    heap := Function.update self.heap grp ((self.heap grp).append obj.record obj.priority)
    bytes := self.bytes + obj.record.cost }

/-- `add`, up to its `_evict`. -/
def stored (obj : Added σ) : Option (HistoryObjects σ) :=
  let found := self.groupFor obj.groupId obj.priority
  found.last.map fun grp => found.appendTo grp obj

/-- `_drop_oldest`, and the bytes that go with it. -/
def dropOldest : Option (HistoryObjects σ) :=
  match self.oldestId, self.oldest with
  | some groupId, some oldest =>
      let grp := self.heap oldest
      -- `del` of a missing key, `max` of nothing
      if groupId ∉ self.groups.keys ∨ grp.held = [] then none
      else
        let groups := self.groups.erase groupId
        let gone := Location.mk groupId
          (HeldGroup.largest (grp.held.map fun entry => entry.1.objectId) grp.evicted)
        some { self with
          groups
          bytes := self.bytes - grp.bytes
          through := some (self.through.elim gone (max gone))
          lastId := if self.last = some oldest then none else self.lastId
          last := if self.last = some oldest then none else self.last
          oldestId := groups.keys.head?
          oldest := (groups.entries.head?).map Prod.snd }
  | _, _ => none

/-- One turn of the loop of `_evict`: it ends, or goes on. -/
def evictOne (cap : Int) : Option (Option (HistoryObjects σ)) :=
  if self.bytes ≤ cap then some none
  else match self.oldest with
    | none => some none
    | some oldest =>
        let grp := self.heap oldest
        if grp.head + 1 = grp.records.length ∨ grp.bytes ≤ self.bytes - cap then
          self.dropOldest.map some
        else (grp.records[grp.head]?).map fun rec => some
          { self with
            heap := Function.update self.heap oldest (grp.evictHead rec)
            bytes := self.bytes - rec.cost }

/-- `__len__`: how many records are held. -/
def size : Nat := (self.groups.entries.map fun entry => (self.heap entry.2).held.length).sum

/-- The loop of `_evict`, if it ends within so many turns. -/
def evictTurns (cap : Int) : Nat → HistoryObjects σ → Option (HistoryObjects σ)
  | turns, self => match self.evictOne cap with
    | none => none
    | some none => some self
    | some (some self') => match turns with
      | 0 => none
      | turns + 1 => evictTurns cap turns self'

/-- `_evict`, which reads the oldest group if there is too much. -/
def evict (cap : Int) : Option (HistoryObjects σ) :=
  if cap < self.bytes ∧ self.oldest = none then none else evictTurns cap self.size self

/-- `add`. -/
def add (obj : Added σ) : Option (HistoryObjects σ) :=
  (self.stored obj).bind fun stored =>
    let max := (self.maxBytes : Int)
    if stored.bytes ≤ max + self.slackBytes then some stored
    else match self.slack with
      | some slack => stored.evict (max - slack)
      | none =>
          if self.bytes ≤ max then some stored
          else stored.evict (max - Nat.max self.slackBytes obj.record.cost)

/-- `discard`. -/
def discard (groupId : Nat) : HistoryObjects σ :=
  match self.groups.get? groupId with
  | none => self
  | some grp =>
      let groups := self.groups.erase groupId
      { self with
        groups
        bytes := self.bytes - (self.heap grp).bytes
        lastId := if self.last = some grp then none else self.lastId
        last := if self.last = some grp then none else self.last
        oldestId := if self.oldest = some grp then groups.keys.head? else self.oldestId
        oldest := if self.oldest = some grp then (groups.entries.head?).map Prod.snd
          else self.oldest }

end HistoryObjects

/-- What is done to a history. -/
inductive HistoryOp (σ : Type) where
  | add (obj : Added σ)
  | discard (groupId : Nat)

namespace HistoryObjects

def step (self : HistoryObjects σ) : HistoryOp σ → Option (HistoryObjects σ)
  | .add obj => self.add obj
  | .discard groupId => some (self.discard groupId)

/-- A history after `ops`. -/
def run (maxBytes : Nat) (slack : Option Nat) (ops : List (HistoryOp σ)) :
    Option (HistoryObjects σ) :=
  ops.foldlM step { maxBytes, slack }

end HistoryObjects

end AioMoqt.Delivery
