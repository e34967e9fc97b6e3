import Mathlib.Algebra.GroupWithZero.Nat
import Mathlib.Algebra.Order.Ring.Rat

/-!
# A peer's send lane

`SendLane` of `delivery.py`: one peer's objects behind a FIFO and a task that writes them.
The source hands each object to the lane without waiting; past its bound the lane drops
whole groups and resumes at a newer one.

The writer is a parameter.  Of its calls only those that write an object or the end of the
track may wait or raise; what the transport does meanwhile is an input of each step.
-/

namespace AioMoqt.Delivery

/-! ## What a lane holds -/

/-- An object or a stream marker, whose `cost` is 0.  `object` is for the writer; `place` counts
the offers before this one, and no step reads it. -/
structure LaneItem (α : Type) where
  groupId : Nat
  cost : Nat
  live : Bool
  born : Option ℚ := none
  object : α
  place : Nat := 0

/-- What the live objects cost, and what those of a replay do. -/
def liveBytes {α : Type} (xs : List (LaneItem α)) : Nat :=
  (xs.map fun x => if x.live then x.cost else 0).sum

def replayedBytes {α : Type} (xs : List (LaneItem α)) : Nat :=
  (xs.map fun x => if x.live then 0 else x.cost).sum

/-- The objects, stream markers left out. -/
def objectCount {α : Type} (xs : List (LaneItem α)) : Nat :=
  (xs.map fun x => if x.cost = 0 then 0 else 1).sum

/-- `LANE_TX_PROBE`. -/
def laneTxProbe : Nat := 8

inductive Control where
  | cut
  | endGroup
  | endTrack (largest : Option (Nat × Nat))
  | resetGroup (groupId : Option Nat)
  | close
  | final
deriving DecidableEq

/-- What waits in a lane. -/
inductive LaneEntry (α : Type) where
  | item (x : LaneItem α)
  | control (c : Control)

namespace LaneEntry

variable {α : Type}

def item? : LaneEntry α → Option (LaneItem α)
  | item x => some x
  | control _ => none

/-- The entry stays where the objects `gone` are taken out, and of the control items those
`moot`. -/
def kept (gone : LaneItem α → Bool) (moot : Control → Bool) : LaneEntry α → Bool
  | item x => !gone x
  | control c => !moot c

end LaneEntry

/-! ## The writer -/

/-- What ends a write: a `DatagramTooLarge`, a `CancelledError`, anything else. -/
inductive SendError where
  | datagramTooLarge
  | cancelled
  | other
deriving DecidableEq

/-- How far a call that may wait has come; `κ` is what is left of it. -/
inductive Progress (κ : Type) where
  | waits (rest : κ)
  | returns (sent : Bool)
  | raises (e : SendError)

/-- What `send_nowait` comes to: it would have to wait, or it is through. -/
inductive Nowait where
  | waits
  | returns (sent : Bool)
  | raises (e : SendError)
deriving DecidableEq

/-- What a lane asks of its writer.  `σ` is the writer's state, `κ` the rest of a call that
waits, and `ω` what the transport does. -/
structure LaneWriter (σ κ α ω : Type) where
  send : σ → LaneItem α → ω → Progress κ × σ
  endTrack : σ → Option (Nat × Nat) → ω → Progress κ × σ
  /-- A call that waited goes on. -/
  goOn : σ → κ → ω → Progress κ × σ
  sendNowait : Option (σ → LaneItem α → ω → Nowait × σ)
  endGroup : σ → σ
  resetGroup : σ → σ
  resetBelow : σ → Nat → ω → σ
  closeStreams : σ → σ
  final : σ → σ
  txQueued : σ → Option Nat → ω → Nat × σ
  /-- True when the rest of the group is skipped. -/
  expire : σ → Nat → Bool × σ
  /-- `parked == "header"`. -/
  opening : σ → Bool
  /-- What the writer's owner does to it. -/
  owner : σ → ω → σ

/-- The transport through one offer: at the probe, at the write, at the two reads of a shed and
at its resets. -/
structure OfferAnswers (ω : Type) where
  probe : ω
  write : ω
  before : ω
  after : ω
  resets : ω

/-! ## The lane -/

/-- Where the lane's task stands. -/
inductive LaneTask (κ α : Type) where
  | ready
  /-- At `_wake.wait()`. -/
  | waiting
  | sending (x : LaneItem α) (rest : κ)
  | ending (rest : κ)
  | exited

/-- `SendLane`.  `offered` records what it was offered and `through` what its writer is through
with; no step reads them. -/
structure SendLane (σ κ α : Type) where
  writer : σ
  maxBytes : Int
  items : List (LaneEntry α) := []
  bytes : Int := 0
  replayBytes : Int := 0
  txBytes : Int := 0
  probeGid : Option Nat := none
  probeN : Nat := 0
  objects : Int := 0
  floor : Option Nat := none
  lost : Option Int := none
  shed : Nat := 0
  sheds : Nat := 0
  expired : Nat := 0
  gate : Bool := true
  deadline : Option ℚ := none
  shedding : Bool := false
  final : Bool := false
  done : Nat := 0
  stopped : Bool := false
  cut : Bool := false
  closing : Bool := false
  wake : Bool := false
  task : LaneTask κ α := .ready
  offered : List (LaneItem α) := []
  through : List (LaneItem α) := []

namespace SendLane

variable {σ κ α ω : Type} (W : LaneWriter σ κ α ω) (s : SendLane σ κ α)

/-- The objects and stream markers that wait. -/
def queued : List (LaneItem α) := s.items.filterMap LaneEntry.item?

def busy : Bool :=
  match s.task with
  | .sending _ _ | .ending _ => true
  | _ => false

/-- The object whose write is in progress. -/
def inFlight : Option (LaneItem α) :=
  match s.task with
  | .sending x _ => some x
  | _ => none

/-- The task waits for work. -/
def asleep : Bool :=
  match s.task with
  | .waiting => true
  | _ => false

/-- `idle`. -/
def idle : Bool := s.items.isEmpty && !s.busy

/-- `deadline`'s setter. -/
def setDeadline (value : Option ℚ) : SendLane σ κ α :=
  { s with deadline := value.filter (· ≠ 0) }

/-- `_put`. -/
def put (entry : LaneEntry α) : SendLane σ κ α :=
  { s with items := s.items ++ [entry], wake := true }

/-! ### Dropping objects -/

/-- `_uncount`. -/
def uncount (x : LaneItem α) : SendLane σ κ α :=
  if x.cost = 0 then s
  else if x.live then { s with objects := s.objects - 1, bytes := s.bytes - x.cost }
  else { s with objects := s.objects - 1, replayBytes := s.replayBytes - x.cost }

/-- Take the objects `gone` out of the queue, and of the control items those `moot`. -/
def sweep (gone : LaneItem α → Bool) (moot : Control → Bool) : SendLane σ κ α :=
  { (s.queued.filter gone).foldl uncount s with
    items := s.items.filter (LaneEntry.kept gone moot) }

/-- `_drop_below`. -/
def dropBelow (floor : Nat) (count : Bool) : SendLane σ κ α :=
  let gone := fun x : LaneItem α => decide (x.groupId < floor)
  { s.sweep gone fun _ => false with
    shed := s.shed + if count then objectCount (s.queued.filter gone) else 0 }

/-- `_skip`. -/
def skip (gid : Nat) (count : Bool) : SendLane σ κ α :=
  if s.floor.all (· < gid + 1) then { s with floor := some (gid + 1) }.dropBelow (gid + 1) count
  else s

/-! ### Shedding -/

/-- Read the transport's backlog. -/
def readTx (floor : Option Nat) (ans : ω) : SendLane σ κ α :=
  let (n, writer) := W.txQueued s.writer floor ans
  { s with txBytes := n, writer }

/-- The queue and the transport together hold more than the bound. -/
def overBound : Bool := s.bytes + s.txBytes > s.maxBytes

/-- A parked header write waits on the backlog that these resets free. -/
def freeHeader (floor : Nat) (ans : ω) : SendLane σ κ α :=
  if s.busy ∧ W.opening s.writer then { s with writer := W.resetBelow s.writer floor ans } else s

/-- The writer resets what is below the floor before it writes what waits. -/
def putCut : SendLane σ κ α :=
  if s.cut then s else { s with cut := true, items := .control .cut :: s.items, wake := true }

def noteShed : SendLane σ κ α :=
  if s.shedding then s else { s with shedding := true, sheds := s.sheds + 1 }

def raiseTo (floor : Nat) : SendLane σ κ α :=
  { s with floor := some floor, lost := some (floor - 1) }

/-- What follows once the objects below `floor` are dropped. -/
def cutBelow (floor : Nat) (ans : ω) : SendLane σ κ α :=
  let floor := s.floor.elim floor (max · floor)
  ((s.raiseTo floor).freeHeader W floor ans).putCut.noteShed

/-- `_shed`. -/
def shedAt (gid : Nat) (ans : OfferAnswers ω) : SendLane σ κ α :=
  let s := (s.dropBelow gid true).readTx W (some gid) ans.before
  if s.overBound then
    ((s.dropBelow (gid + 1) true).readTx W (some (gid + 1)) ans.after).cutBelow W (gid + 1)
      ans.resets
  else s.cutBelow W gid ans.resets

/-! ### Ending -/

/-- `stop`.  The task ends at once: what it awaited is cancelled, and the loop it was in goes no
further. -/
def stop : SendLane σ κ α :=
  if s.stopped then s
  else { s with
    stopped := true, items := [], bytes := 0, replayBytes := 0, objects := 0, txBytes := 0,
    wake := true, task := .exited }

/-- `_failed`: false ends the lane. -/
def failed (x : LaneItem α) : SendError → Bool × SendLane σ κ α
  | .datagramTooLarge | .cancelled => (false, s)
  | .other =>
    let s := { s with writer := W.resetGroup s.writer }.skip x.groupId true
    (true, { s with lost := some x.groupId })

/-! ### What the source calls -/

/-- The counters with an object that goes into the queue. -/
def count (x : LaneItem α) : SendLane σ κ α :=
  if x.cost = 0 then s
  else if x.live then { s with objects := s.objects + 1, bytes := s.bytes + x.cost }
  else { s with objects := s.objects + 1, replayBytes := s.replayBytes + x.cost }

/-- The object waits in the queue, and past the bound groups are shed. -/
def enqueue (x : LaneItem α) (ans : OfferAnswers ω) : SendLane σ κ α :=
  if x.live ∧ ((s.count x).put (.item x)).overBound then
    ((s.count x).put (.item x)).shedAt W x.groupId ans
  else (s.count x).put (.item x)

/-- Every so many live objects the transport's backlog is read. -/
def probe (x : LaneItem α) (ans : ω) : SendLane σ κ α :=
  if x.live then
    let s := if s.probeGid ≠ some x.groupId ∨ laneTxProbe ≤ s.probeN then
        { s with probeGid := some x.groupId, probeN := 0 }.readTx W s.floor ans
      else s
    { s with probeN := s.probeN + 1 }
  else s

/-- The lane is empty and under its bound, and its writer takes objects inline. -/
def inline? (x : LaneItem α) : Option (σ → LaneItem α → ω → Nowait × σ) :=
  if s.idle ∧ s.gate ∧ s.txBytes + x.cost ≤ s.maxBytes then W.sendNowait else none

/-- What the inline write has come to. -/
def nowaitCame (x : LaneItem α) (ans : OfferAnswers ω) : Nowait × σ → SendLane σ κ α
  | (.waits, writer) => { s with writer }.enqueue W x ans
  | (.returns _, writer) => { s with writer, done := s.done + 1, through := s.through ++ [x] }
  -- Not caught here: the source's call raises.
  | (.raises .cancelled, writer) => { s with writer, through := s.through ++ [x] }
  | (.raises e, writer) =>
    match { s with writer, through := s.through ++ [x] }.failed W x e with
    | (true, s) => s
    | (false, s) => s.stop

/-- Write the object through, or queue it. -/
def place (x : LaneItem α) (ans : OfferAnswers ω) : SendLane σ κ α :=
  match s.inline? W x with
  | none => s.enqueue W x ans
  | some nowait => s.nowaitCame W x ans (nowait s.writer x ans.write)

/-- The object goes to the writer or into the queue, unless its group is not sent any more. -/
def take (x : LaneItem α) (ans : OfferAnswers ω) : SendLane σ κ α :=
  if s.floor.any (x.groupId < ·) then
    if x.cost ≠ 0 ∧ s.gate then { s with shed := s.shed + 1 } else s
  else (s.probe W x ans.probe).place W x ans

/-- `offer`.  What comes after the end is no offer. -/
def offer (x : LaneItem α) (ans : OfferAnswers ω) : SendLane σ κ α :=
  if s.stopped ∨ s.final then s
  else
    let x := { x with place := s.offered.length }
    { s with offered := s.offered ++ [x] }.take W x ans

/-- `end_group`, `end_track` and `reset_group`. -/
def tell (c : Control) : SendLane σ κ α :=
  if s.stopped ∨ s.final then s else s.put (.control c)

/-- `close_streams`. -/
def closeStreams : SendLane σ κ α :=
  if s.closing ∨ s.final ∨ s.stopped then s else { s with closing := true }.put (.control .close)

/-- `finish`. -/
def finish : SendLane σ κ α :=
  if s.final ∨ s.stopped then s else { s with final := true }.put (.control .final)

/-- A RESET_GROUP that `resume` leaves out. -/
def moot (groupId : Nat) : Control → Bool
  | .resetGroup gid => gid.getD 0 ≤ groupId
  | _ => false

/-- `resume`. -/
def resume (groupId : Nat) (rejoin : Bool) : SendLane σ κ α :=
  if s.stopped ∨ s.final then s
  else
    let s := s.sweep (fun x => x.groupId ≤ groupId) (moot groupId)
    let s := { s with writer := W.resetGroup s.writer }
    if ¬ rejoin ∨ s.lost = some (groupId : Int) then s.skip groupId false
    else if s.floor = some (groupId + 1) then { s with floor := some groupId }
    else s

/-! ### The task -/

/-- An item is done with, and the task is at the top of its loop. -/
def next : SendLane σ κ α := { s with done := s.done + 1, task := .ready }

/-- How far the write of an object has come. -/
def sendCame (x : LaneItem α) : Progress κ × σ → SendLane σ κ α
  | (.waits rest, writer) => { s with writer, task := .sending x rest }
  | (.returns _, writer) => { s with writer, through := s.through ++ [x] }.next
  | (.raises e, writer) =>
    match { s with writer, through := s.through ++ [x], task := .ready }.failed W x e with
    | (true, s) => s.next
    | (false, s) => { s with task := .exited }

/-- How far the end of the track has come. -/
def endCame : Progress κ × σ → SendLane σ κ α
  | (.waits rest, writer) => { s with writer, task := .ending rest }
  | (.raises .cancelled, writer) => { s with writer, task := .exited }
  | (_, writer) => { s with writer }.next

/-- The delivery timeout of an object has passed. -/
def late (x : LaneItem α) (now : ℚ) : Bool :=
  s.deadline.any fun deadline => x.born.any fun born => deadline < now - born

/-- What `_run` does with an object, taken off the counters. -/
def runItem (x : LaneItem α) (now : ℚ) (ans : ω) : SendLane σ κ α :=
  if ¬ s.gate then
    ({ s with writer := W.resetGroup s.writer }.skip x.groupId false).next
  else if s.late x now then
    match W.expire s.writer x.groupId with
    | (true, writer) =>
      { { s with expired := s.expired + 1, writer }.skip x.groupId true with
        lost := some x.groupId }.next
    | (false, writer) => { s with expired := s.expired + 1, writer }.next
  else s.sendCame W x (W.send s.writer x ans)

/-- What `_run` does with a control item: `_control` and `_end_track`. -/
def runControl (ans : ω) : Control → SendLane σ κ α
  | .cut =>
    let writer := s.floor.elim s.writer fun floor => W.resetBelow s.writer floor ans
    { s with cut := false, writer }.next
  | .endGroup => { s with writer := W.endGroup s.writer }.next
  | .endTrack largest =>
    -- No Objects at Forward State 0.
    if s.gate then s.endCame (W.endTrack s.writer largest ans) else s.next
  | .resetGroup gid =>
    let s := { s with writer := W.resetGroup s.writer }
    (gid.elim s fun gid => s.skip gid true).next
  | .close => { s with closing := false, writer := W.closeStreams s.writer }.next
  | .final => { s with writer := W.final s.writer, task := .exited }

/-- `_run`, from one await or one turn of its loop to the next. -/
def turn (now : ℚ) (ans : ω) : SendLane σ κ α :=
  match s.task with
  | .exited => s
  | .waiting => if s.wake then { s with task := .ready } else s
  | .sending x rest => s.sendCame W x (W.goOn s.writer rest ans)
  | .ending rest => s.endCame (W.goOn s.writer rest ans)
  | .ready =>
    if s.stopped then { s with task := .exited }
    else match s.items with
      | [] => { s with shedding := false, wake := false, task := .waiting }
      | .control c :: items => { s with items }.runControl W ans c
      | .item x :: items => ({ s with items }.uncount x).runItem W x now ans

end SendLane

/-! ## Runs -/

/-- What happens to a lane. -/
inductive LaneEvent (α ω : Type) where
  | offer (x : LaneItem α) (ans : OfferAnswers ω)
  | endGroup
  | endTrack (largest : Option (Nat × Nat))
  | resetGroup (groupId : Option Nat)
  | closeStreams
  | finish
  | resume (groupId : Nat) (rejoin : Bool)
  | gate (isOpen : Bool)
  | deadline (value : Option ℚ)
  | stop
  /-- The task is cancelled from outside. -/
  | cancel
  | owner (ans : ω)
  | turn (now : ℚ) (ans : ω)

namespace LaneEvent

variable {α ω : Type}

def item? : LaneEvent α ω → Option (LaneItem α)
  | offer x _ => some x
  | _ => none

end LaneEvent

namespace SendLane

variable {σ κ α ω : Type} (W : LaneWriter σ κ α ω)

def step (s : SendLane σ κ α) : LaneEvent α ω → SendLane σ κ α
  | .offer x ans => s.offer W x ans
  | .endGroup => s.tell .endGroup
  | .endTrack largest => s.tell (.endTrack largest)
  | .resetGroup groupId => s.tell (.resetGroup groupId)
  | .closeStreams => s.closeStreams
  | .finish => s.finish
  | .resume groupId rejoin => s.resume W groupId rejoin
  | .gate isOpen => { s with gate := isOpen }
  | .deadline value => s.setDeadline value
  | .stop => s.stop
  | .cancel => { s with task := .exited }
  | .owner ans => { s with writer := W.owner s.writer ans }
  | .turn now ans => s.turn W now ans

def run (s : SendLane σ κ α) (events : List (LaneEvent α ω)) : SendLane σ κ α :=
  events.foldl (step W) s

/-- A lane as `FanoutDelivery.add` starts it: a peer that joins while the source is in a group
waits for the next one. -/
def start (writer : σ) (maxBytes : Int) (gate : Bool) (joined : Option Nat) : SendLane σ κ α :=
  { writer, maxBytes, gate, floor := joined.map (· + 1) }

end SendLane

end AioMoqt.Delivery
