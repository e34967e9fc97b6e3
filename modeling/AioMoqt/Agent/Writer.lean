import AioMoqt.Lib.BigEndian
import Mathlib.Data.List.ReduceOption

/-!
# The writer of an agent

`agent/writer.py`: an agent's calls number their objects and queue them, and `produce` hands
them on.
-/

namespace AioMoqt.Agent

open AioMoqt.Lib.BigEndian

/-- `on_full`. -/
inductive OnFull where
  | block
  | dropNew
  | dropOldest
  | error
deriving Repr, DecidableEq

/-- What the writer reads of its `PublishSpec`; `name` is its track. -/
structure PublishSpec where
  name : String
  groupSize : Option Nat
  buffer : Nat
  onFull : OnFull
deriving Repr, DecidableEq

/-- `_Item`. -/
structure Item where
  groupId : Int
  objectId : Nat
  payload : Bytes
  groupStart : Bool
deriving Repr, DecidableEq

/-- `WriteStats`, but for `sent`, which counts per peer. -/
structure WriteStats where
  queued : Nat := 0
  dropped : Nat := 0
  bytes : Nat := 0
  groups : Nat := 0
deriving Repr, DecidableEq

/-- What a call raises. -/
inductive WriteError where
  | agentError (reason : String)
  /-- `WriteRefused`. -/
  | refused (reason : String)
  | queueFull
  | queueEmpty
deriving Repr, DecidableEq

/-- An `asyncio` task. -/
inductive TaskState where
  | pending
  | done
  | cancelled
deriving Repr, DecidableEq

/-- The `put` task of a call that waits for room. -/
structure Put where
  item : Item
  state : TaskState
deriving Repr, DecidableEq

/-- `Writer`, with the queue it shares with its track. -/
structure Writer where
  /-- `None` is the close sentinel. -/
  queue : List (Option Item) := []
  stats : WriteStats := {}
  /-- `_putter`, of the call that holds the lock while it waits. -/
  putter : Option Put := none
  group : Int := -1
  object : Nat := 0
  inGroup : Nat := 0
  forceNew : Bool := false
  closed : Bool := false
  /-- The payloads of the items that `stats.dropped` counts, as a history. -/
  lost : List Bytes := []
deriving Repr, DecidableEq

/-- The objects of a queue. -/
def items (queue : List (Option Item)) : List Item := queue.reduceOption

/-- How far a call got. -/
inductive Outcome where
  | returned
  | waits
  | raised (error : WriteError)
deriving Repr, DecidableEq

namespace Writer

variable (spec : PublishSpec) (w : Writer)

/-- `Queue.full`. -/
def full : Bool := spec.buffer ≠ 0 ∧ spec.buffer ≤ w.queue.length

/-- `Queue.put_nowait`. -/
def putNowait (item : Option Item) : Writer × Except WriteError Bool :=
  if full spec w then (w, .error .queueFull)
  else ({ w with queue := w.queue ++ [item] }, .ok true)

/-- `_advance_group`. -/
def advanceGroup : Writer :=
  { w with
    group := w.group + 1
    object := 0
    inGroup := 0
    forceNew := false
    stats := { w.stats with groups := w.stats.groups + 1 } }

/-- `self.stats.dropped += 1` for each. -/
def drop (gone : List (Option Item)) : Writer :=
  { w with
    stats := { w.stats with dropped := w.stats.dropped + gone.length }
    lost := w.lost ++ (items gone).map Item.payload }

/-- An object of the group. -/
def ofGroup (groupId : Int) (queued : Option Item) : Bool :=
  queued.any fun item => item.groupId = groupId

/-- `_abandon`. -/
def abandon (groupId : Int) : Writer :=
  let w := w.drop (w.queue.filter (ofGroup groupId))
  let w := { w with queue := w.queue.filter (!ofGroup groupId ·) }
  if w.group = groupId then { w with forceNew := true } else w

/-- `_admit`: whether the item was queued. -/
def admitItem (item : Item) : Writer × Except WriteError Bool :=
  if full spec w then
    match spec.onFull with
    | .dropNew =>
        let w := w.drop [some item]
        (if item.groupStart then w.abandon item.groupId else w, .ok false)
    | .dropOldest =>
        match w.queue with
        | [] => (w, .error .queueEmpty)
        | none :: queue => putNowait spec ({ w with queue }.drop [none]) (some item)
        | some oldest :: queue =>
            let w := { w with queue }.drop [some oldest]
            if oldest.groupStart then
              let w := w.abandon oldest.groupId
              if item.groupId = oldest.groupId then (w.drop [some item], .ok false)
              else putNowait spec w (some item)
            else putNowait spec w (some item)
    | .error =>
        (w, .error (.refused (s!"writer {spec.name}: queue full ({spec.buffer})")))
    | .block => putNowait spec w (some item)
  else putNowait spec w (some item)

/-- The end of `_put`, once the object is queued. -/
def number (size : Nat) : Writer :=
  { w with
    object := w.object + 1
    inGroup := w.inGroup + 1
    stats := { w.stats with queued := w.stats.queued + 1, bytes := w.stats.bytes + size } }

/-- `_put`, up to the wait for room. -/
def put (data : Bytes) (groupStart : Bool) : Writer × Outcome :=
  let item : Item := ⟨w.group, w.object, data, groupStart⟩
  if full spec w ∧ spec.onFull = .block then
    ({ w with putter := some ⟨item, .pending⟩ }, .waits)
  else
    match admitItem spec w item with
    | (w, .error e) => (w, .raised e)
    | (w, .ok false) => (w, .returned)
    | (w, .ok true) => (w.number data.length, .returned)

/-- What `_check_open` raises. -/
def isClosed : WriteError := .agentError (s!"writer {spec.name} is closed")

/-- `snapshot`, with the lock. -/
def snapshot (data : Bytes) : Writer × Outcome :=
  if w.closed then (w, .raised (isClosed spec))
  else put spec w.advanceGroup data true

/-- A write opens a group. -/
def opens : Bool :=
  w.group < 0 ∨ w.forceNew ∨ spec.groupSize.any fun size => size ≤ w.inGroup

/-- `write`, with the lock. -/
def write (data : Bytes) : Writer × Outcome :=
  if w.closed then (w, .raised (isClosed spec))
  else if opens spec w then put spec w.advanceGroup data true
  else put spec w data false

/-- `end_group`. -/
def endGroup : Writer := { w with forceNew := true }

/-- The `put` task of `_wait_for_room` runs: it queues its item once there is room. -/
def putRuns : Writer :=
  match w.putter with
  | some ⟨item, .pending⟩ =>
      if full spec w then w
      else { w with queue := w.queue ++ [some item], putter := some ⟨item, .done⟩ }
  | _ => w

end Writer

/-- How far `_PushTrack.produce` is. -/
inductive Production where
  /-- At the head of its loop. -/
  | head
  /-- In `get`. -/
  | getting
  /-- In `out.write`. -/
  | writing
  | ended
deriving Repr, DecidableEq

/-- A writer and its track, with what became of the calls and the objects so far. -/
structure State where
  writer : Writer := {}
  production : Production := .head
  stopping : Bool := false
  /-- The objects given to `out.write`. -/
  handed : List Item := []
  /-- The payloads of the calls that returned. -/
  returned : List Bytes := []
  /-- The payloads that were queued for a caller that was cancelled before it went on. -/
  orphans : List Bytes := []
deriving Repr, DecidableEq

/-- What happens next.  A call that waits for the lock has done nothing yet: it is the step that
it takes with the lock. -/
inductive Step where
  | snapshot (data : Bytes)
  | write (data : Bytes)
  | endGroup
  | close
  /-- The `put` task of the call that waits runs. -/
  | put
  /-- The call goes on after its task. -/
  | resume
  /-- The caller is cancelled while it waits. -/
  | cancel
  /-- `produce` goes on to its next wait. -/
  | produce
  /-- `produce` is cancelled, or `out.write` raises. -/
  | fail
deriving Repr, DecidableEq

namespace State

variable (spec : PublishSpec) (s : State)

/-- A call that was given the lock. -/
def call (data : Bytes) : Writer × Outcome → State
  | (writer, .returned) => { s with writer, returned := s.returned ++ [data] }
  | (writer, _) => { s with writer }

/-- `close`, with `stop`, which leaves the sentinel where there is room. -/
def close : State :=
  if s.writer.closed then s
  else
    let putter := s.writer.putter.map fun put =>
      if put.state = .pending then { put with state := .cancelled } else put
    let writer := { s.writer with closed := true, putter }
    { s with writer := (Writer.putNowait spec writer none).1, stopping := true }

/-- The call goes on: its object is numbered, or it raises. -/
def resume : State :=
  match s.writer.putter with
  | some ⟨item, .done⟩ =>
      { s with
        writer := { s.writer with putter := none }.number item.payload.length
        returned := s.returned ++ [item.payload] }
  | some ⟨_, .cancelled⟩ => { s with writer := { s.writer with putter := none } }
  | _ => s

/-- The caller is cancelled, and with it its task unless that is done. -/
def cancel : State :=
  match s.writer.putter with
  | some ⟨item, .pending⟩ =>
      { s with writer := { s.writer with putter := some ⟨item, .cancelled⟩ } }
  | some ⟨item, .done⟩ =>
      { s with
        writer := { s.writer with putter := none }
        orphans := s.orphans ++ [item.payload] }
  | _ => s

/-- `produce`. -/
def produce : State :=
  match s.production with
  | .head =>
      if s.stopping ∧ s.writer.queue = [] then { s with production := .ended }
      else { s with production := .getting }
  | .getting =>
      match s.writer.queue with
      | [] => s
      | none :: queue => { s with writer := { s.writer with queue }, production := .ended }
      | some item :: queue =>
          { s with
            writer := { s.writer with queue }
            handed := s.handed ++ [item]
            production := .writing }
  | .writing => { s with production := .head }
  | .ended => s

/-- One step; a call waits while another holds the lock. -/
def step : Step → State
  | .snapshot data =>
      if s.writer.putter.isSome then s else s.call data (Writer.snapshot spec s.writer data)
  | .write data =>
      if s.writer.putter.isSome then s else s.call data (Writer.write spec s.writer data)
  | .endGroup => { s with writer := s.writer.endGroup }
  | .close => s.close spec
  | .put => { s with writer := Writer.putRuns spec s.writer }
  | .resume => s.resume
  | .cancel => s.cancel
  | .produce => s.produce
  | .fail => { s with production := .ended }

/-- One step after another. -/
def run (steps : List Step) : State := steps.foldl (step spec) s

end State

end AioMoqt.Agent
