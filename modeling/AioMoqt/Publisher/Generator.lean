import AioMoqt.Publisher.Subscription

/-!
# Generated tracks

The default generator of `PublishedTrack` in `track.py`: one producer task a subgroup and
peer, the `_SubgroupSender` of each, and the SUBSCRIBEs, updates and cancellations that
start, cut and stop them.  A task runs from one await to the next, so a step of the model
is one such stretch; a write may be suspended before the transport takes the data, and
after.
-/

namespace AioMoqt.Publisher

open AioMoqt.Messages AioMoqt.Lib.BigEndian

/-! ## State -/

/-- What the constructor sets. -/
structure Config where
  numSubgroups : Nat
  groupSize : Nat
  objectSize : Nat
  pad : Bytes
  keepsHistory : Bool
  datagram : Bool

/-- How many tasks produce for a peer: one a subgroup, or a single one for datagrams.  Each
takes every so many objects of a group. -/
def Config.width (cfg : Config) : Nat := if cfg.datagram then 1 else cfg.numSubgroups

/-- The payload of a generated object follows from its Location. -/
def Config.payload (cfg : Config) (group object : Nat) : Bytes :=
  ((s!"{group}.{object}").toUTF8.toList ++ cfg.pad).take cfg.objectSize

/-- An object to write on a stream. -/
structure Generated where
  object : Nat
  payload : Bytes
  extensions : Option KeyValuePairs

/-- A record of `ObjectHistory`. -/
structure Held extends Generated where
  group : Nat
  subgroup : Option Nat

/-- How a stream stands: open, ended by us, stopped by the peer, or gone with its
session. -/
inductive StreamState where
  | opened | fin | reset | stopped | lost
deriving DecidableEq

/-- A subgroup stream as the peer sees it.  `first` records the object of its subgroup
where the window starts, as `_send_head` read it. -/
structure Stream where
  peer : Nat
  trackAlias : Nat
  group : Nat
  subgroup : Nat
  header : Bool := false
  items : List Item := []
  state : StreamState := .opened
  first : Nat := 0

/-- An object that was handed to a session, on a stream or as a datagram. -/
structure Written where
  peer : Nat
  trackAlias : Nat
  group : Nat
  object : Nat
  payload : Bytes

/-- Where a producer task stands. -/
inductive Pc where
  | ready
  | barrier
  | opening (obj : Generated)
  | header (stream : Nat) (obj : Generated) (handed : Bool)
  | sending (stream : Nat) (obj : Generated) (item : Item) (rest : List Generated)
      (handed : Bool)
  | datagram (obj : Generated)

/-- A task of `_generate_subgroup` or `_generate_datagrams` with its `_SubgroupSender`.
`run` is the first task of its spawn, and `cancelled` says that a CancelledError waits for
it. -/
structure Task where
  run : Nat
  peer : Nat
  trackAlias : Nat
  subgroup : Nat
  group : Nat
  object : Nat
  header : Option Header := none
  stream : Option Nat := none
  stopped : Bool := false
  short : Bool := false
  pc : Pc := .ready
  cancelled : Bool := false

/-- A PUBLISH_DONE. -/
structure Done where
  peer : Nat
  request : Nat
  status : DoneStatus
  streamCount : Nat

/-- A `PublishedTrack` with what its sessions wrote.  `fills` are the fill tasks, by peer
and request, whose stream is yet to open, and `filled` those that opened one. -/
structure Track where
  subs : Nat → Subscription := fun _ => {}
  numSubs : Nat := 1
  tasks : Nat → Option Task := fun _ => none
  nextTask : Nat := 0
  streams : Nat → Stream := fun _ => ⟨0, 0, 0, 0, false, [], .opened, 0⟩
  nextStream : Nat := 0
  written : List Written := []
  largest : Option Location := none
  history : List Held := []
  fills : List (Nat × Nat) := []
  filled : List (Nat × Nat) := []
  dones : List Done := []

namespace Track

variable (cfg : Config) (t : Track)

def setSub (p : Nat) (sub : Subscription) : Track :=
  { t with subs := Function.update t.subs p sub }

def setTask (i : Nat) (k : Option Task) : Track :=
  { t with tasks := Function.update t.tasks i k }

def setStream (sid : Nat) (stream : Stream) : Track :=
  { t with streams := Function.update t.streams sid stream }

/-! ## The end of a subscription -/

/-- The PUBLISH_DONE of `_send_publish_done`, on the request that subscribed last. -/
def publishDone (p : Nat) (sub : Subscription) : List Done :=
  if sub.drained then
    (sub.subscribeRequest.map fun request =>
      ⟨p, request, sub.endStatus, sub.streamCount + sub.fillStreams⟩).toList
  else []

/-- `_finish_range`: PUBLISH_DONE after the last stream of an ended subscription closes. -/
def finishRange (p : Nat) (sub : Subscription) : Track :=
  { t.setSub p sub.finishRange with dones := t.dones ++ publishDone p sub }

/-- `_stream_closed`. -/
def streamClosed (p : Nat) : Track := t.finishRange p (t.subs p).streamClosed

/-- `_range_ended`: production passed the End Group, which ends the subscription; from
draft 20 on only this peer's producers stop. -/
def rangeEnded (p : Nat) : Track :=
  let sub := t.subs p
  if sub.endsWithDone then
    match sub.window with
    | .range _ _ _ => t.finishRange p (sub.ended .subscriptionEnded)
    | _ => t
  else t.setSub p { sub with generating := false }

/-! ## A sender -/

/-- The end of a stream, if it is open. -/
def closeStream (sid : Nat) (items : List Item) (state : StreamState) : Track :=
  let stream := t.streams sid
  if stream.state = .opened then
    t.setStream sid { stream with items := stream.items ++ items, state }
  else t

/-- `_SubgroupSender.reset`. -/
def reset (k : Task) : Track × Task :=
  match k.stream with
  | none => (t, k)
  | some sid =>
      let cut := if (t.subs k.peer).closed then t else t.closeStream sid [] .reset
      (cut.streamClosed k.peer, { k with stream := none })

/-- `_SubgroupSender.stop`. -/
def stop (k : Task) : Track × Task :=
  match k.stream with
  | none => (t, { k with stopped := true })
  | some _ => (t.streamClosed k.peer, { k with stopped := true, stream := none })

/-- `_SubgroupSender.end_stream`; none where the marker cannot be coded. -/
def endStream (k : Task) : Option (Track × Task) :=
  match k.stream, k.header with
  | some sid, some h =>
      if k.short then some (t.reset k)
      else if k.subgroup = 0 ∧ ¬ (t.subs k.peer).excludesEnd h.group cfg.groupSize then
        (h.nextObject cfg.groupSize [] none .endOfGroup).map fun coded =>
          ((t.closeStream sid [coded.1] .fin).streamClosed k.peer,
            { k with stream := none, header := some coded.2 })
      else some ((t.closeStream sid [] .fin).streamClosed k.peer, { k with stream := none })
  | _, _ => some (t, k)

/-- `_SubgroupSender.new_group`. -/
def newGroup (k : Task) (group : Nat) : Option (Track × Task) :=
  (t.endStream cfg k).map fun (t, k) =>
    (t, { k with stopped := false, short := false, header := some { group } })

/-! ## A producer task -/

/-- How a stretch of a task ends: at its next await, or with the task. -/
inductive Outcome where
  | awaits (t : Track) (k : Task)
  | ends (t : Track)

/-- The task takes the next object of its subgroup. -/
def next (k : Task) : Outcome :=
  .awaits t { k with object := k.object + cfg.width, pc := .ready }

/-- The object is coded and its write begins: the rest follows once it is done.  A stream
that is gone or a negative delta raises, which ends the task where it is. -/
def write (k : Task) : List Generated → Outcome
  | [] => t.next cfg k
  | obj :: rest =>
      match k.stream, k.header.bind
          (·.nextObject obj.object obj.payload obj.extensions .normal) with
      | some sid, some (item, h) =>
          if (t.subs k.peer).closed then .ends (t.reset k).1
          else .awaits t { k with header := some h, pc := .sending sid obj item rest false }
      | _, _ => .ends t

/-- `_SubgroupSender.send`, `encode_open` included, which takes the same way for an open
stream. -/
def send (k : Task) (obj : Generated) : Outcome :=
  if k.stopped ∨ ¬ (t.subs k.peer).passes k.group obj.object then t.next cfg k
  else if k.stream.isSome then t.write cfg k [obj]
  else .awaits t { k with pc := .opening obj }

/-- `ObjectHistory._held` at one Location: the first record wins. -/
def held (group object : Nat) : Option Held :=
  t.history.find? fun rec => rec.group = group ∧ rec.object = object

/-- The ids of `range(first, stop, step)`. -/
def missing (first stop step : Nat) : List Nat :=
  (List.range (stop - first)).filterMap fun i =>
    if step ∣ i then some (first + i) else none

/-- Where a stream of this subgroup starts, given where the window does. -/
def aligned (subgroup first : Nat) : Nat :=
  first + (((subgroup : Int) - first) % cfg.numSubgroups).toNat

/-- The records of the head, if the history has them all for this subgroup. -/
def headRecords (k : Task) (ids : List Nat) : Option (List Generated) :=
  ids.mapM fun id => (t.held k.group id).bind fun rec =>
    if cfg.keepsHistory ∧ rec.subgroup.getD 0 = k.subgroup then some rec.toGenerated else none

/-- The open stream of a task is to start with this object. -/
def starts (k : Task) (first : Nat) : Track :=
  match k.stream with
  | none => t
  | some sid => t.setStream sid { t.streams sid with first }

/-- `_SubgroupSender._send_head`, then the object: a stream opening past the first object
the window admits carries the earlier ones from the history; lacking any, it is short. -/
def sendHead (k : Task) (obj : Generated) : Outcome :=
  match (t.subs k.peer).firstObject k.group with
  | none => .ends t
  | some start =>
      let first := aligned cfg k.subgroup start
      let t := t.starts k first
      match t.headRecords cfg k (missing first obj.object cfg.numSubgroups) with
      | some records => t.write cfg k (records ++ [obj])
      | none => t.write cfg { k with short := true } [obj]

/-- A stream is opened: it is counted, on the first peer, and listed on its own. -/
def openStream (k : Task) : Track :=
  let counted := t.setSub 0 { t.subs 0 with streamCount := (t.subs 0).streamCount + 1 }
  let listed := counted.setSub k.peer (counted.subs k.peer).streamOpened
  let begun : Track := listed.setStream t.nextStream
    ⟨k.peer, k.trackAlias, k.group, k.subgroup, false, [], .opened, 0⟩
  { begun with nextStream := t.nextStream + 1 }

/-- `open_uni_stream` is done, and the header goes out. -/
def opened (k : Task) (obj : Generated) : Outcome :=
  let sid := t.nextStream
  let begun := t.openStream k
  let k := { k with
    stream := some sid
    header := k.header.map fun h => { h with firstObject := obj.object = k.subgroup } }
  if (t.subs k.peer).closed then .ends (begun.reset k).1
  else .awaits begun { k with pc := .header sid obj false }

/-- A write that the session or the stream refuses: on a dead session the task is
cancelled, and a stream that was stopped or is gone raises MOQTStreamStopped, so that the
sender skips the rest of the group. -/
def refused (k : Task) : Outcome :=
  if (t.subs k.peer).closed then .ends (t.reset k).1
  else (t.stop k).1.next cfg (t.stop k).2

/-- The transport takes a header. -/
def handHeader (k : Task) (sid : Nat) (obj : Generated) : Outcome :=
  let stream := t.streams sid
  if (t.subs k.peer).closed ∨ stream.state ≠ .opened then t.refused cfg k
  else .awaits (t.setStream sid { stream with header := true })
    { k with pc := .header sid obj true }

/-- The transport takes an object. -/
def handObject (k : Task) (sid : Nat) (obj : Generated) (item : Item) (rest : List Generated) :
    Outcome :=
  let stream := t.streams sid
  if (t.subs k.peer).closed ∨ stream.state ≠ .opened then t.refused cfg k
  else
    .awaits
      { t.setStream sid { stream with items := stream.items ++ [item] } with
        written := t.written ++ [⟨k.peer, k.trackAlias, k.group, obj.object, obj.payload⟩] }
      { k with pc := .sending sid obj item rest true }

/-- A datagram goes out. -/
def handDatagram (k : Task) (obj : Generated) : Outcome :=
  next cfg
    { t with written := t.written ++
      [⟨k.peer, k.trackAlias, k.group, obj.object, obj.payload⟩] } k

/-- `_remember`; `kept` is what the eviction of the history leaves. -/
def remember (group object : Nat) (rec : Held) (kept : Held → Bool) : Track :=
  let loc := Location.mk group object
  { t with
    largest := some (t.largest.elim loc (max loc))
    history := if cfg.keepsHistory then (t.history ++ [rec]).filter kept else t.history }

/-- What the environment decides of a stretch: the properties an object is stamped with,
and what the history evicts. -/
structure Stamp where
  extensions : Option KeyValuePairs
  kept : Held → Bool

/-- The object a task generates. -/
def generated (k : Task) (stamp : Stamp) : Generated :=
  ⟨k.object, cfg.payload k.group k.object, stamp.extensions⟩

/-- The track once the object is remembered. -/
def noted (k : Task) (stamp : Stamp) : Track :=
  t.remember cfg k.group k.object
    { generated cfg k stamp with
      group := k.group
      subgroup := if cfg.datagram then none else some k.subgroup } stamp.kept

/-- An object is generated, remembered and sent. -/
def generate (k : Task) (stamp : Stamp) : Outcome :=
  let obj := generated cfg k stamp
  let noted := t.noted cfg k stamp
  if cfg.datagram then
    if (t.subs k.peer).closed then .ends noted
    else if (t.subs k.peer).passes k.group k.object then .awaits noted { k with pc := .datagram obj }
    else noted.next cfg k
  else noted.send cfg k obj

/-- The next group begins: the open stream ends, and past the End Group the task does. -/
def rollover (k : Task) (group : Nat) (stamp : Stamp) : Outcome :=
  let start := if cfg.datagram then 0 else k.subgroup
  if (t.subs k.peer).closed ∧ ¬ cfg.datagram then .ends (t.reset k).1
  else match t.newGroup cfg k group with
    | none => .ends t
    | some (t, k) =>
        if (t.subs k.peer).pastEnd group then .ends (t.rangeEnded k.peer)
        else t.generate cfg { k with group, object := start } stamp

/-- All tasks of the run have come to the barrier of this group, or are past it. -/
def released (k : Task) : Bool :=
  (List.range cfg.numSubgroups).all fun j =>
    match t.tasks (k.run + j) with
    | none => false
    | some sibling =>
        k.group < sibling.group ||
          sibling.group = k.group && match sibling.pc with | .barrier => true | _ => false

/-- Some task of the run has ended, which aborts the barrier. -/
def broken (k : Task) : Bool :=
  (List.range cfg.numSubgroups).any fun j => (t.tasks (k.run + j)).isNone

/-- One stretch of a task that is not cancelled. -/
def resume (k : Task) (stamp : Stamp) : Outcome :=
  match k.pc with
  | .ready =>
      match k.header with
      | none => t.rollover cfg k k.group stamp
      | some _ =>
          if k.object < cfg.groupSize then t.generate cfg k stamp
          else if cfg.numSubgroups > 1 ∧ ¬ cfg.datagram then .awaits t { k with pc := .barrier }
          else t.rollover cfg k (k.group + 1) stamp
  | .barrier =>
      if t.broken cfg k then .ends (t.reset k).1
      else if t.released cfg k then t.rollover cfg k (k.group + 1) stamp
      else .awaits t k
  | .opening obj => t.opened k obj
  | .header sid obj false => t.handHeader cfg k sid obj
  | .header _ obj true => t.sendHead cfg k obj
  | .sending sid obj item rest false => t.handObject cfg k sid obj item rest
  | .sending _ _ _ rest true => t.write cfg k rest
  | .datagram obj => t.handDatagram cfg k obj

/-- A task runs: a cancelled one resets its stream and ends. -/
def runTask (i : Nat) (stamp : Stamp) : Track :=
  match t.tasks i with
  | none => t
  | some k =>
      if k.cancelled then (t.reset k).1.setTask i none
      else match t.resume cfg k stamp with
        | .awaits t k => t.setTask i (some k)
        | .ends t => t.setTask i none

/-! ## Peers -/

/-- `_SubgroupSender.reset` by a peer's event, for a task that does not run. -/
def cutTask (p i : Nat) : Track :=
  match t.tasks i with
  | none => t
  | some k =>
      match k.stream, k.header with
      | some _, some h =>
          if k.peer = p ∧ ¬ (t.subs p).passes h.group h.nextObjectId then
            (t.reset k).1.setTask i (some (t.reset k).2)
          else t
      | _, _ => t

/-- `_cut_streams`: the streams whose next object the subscription no longer takes. -/
def cutStreams (p : Nat) : Track := (List.range t.nextTask).foldl (fun t i => t.cutTask p i) t

/-- `_set_forward`. -/
def setForward (p : Nat) : Option Bool → Track
  | none => t
  | some forward => (t.setSub p { t.subs p with forward }).cutStreams p

/-- The first group of a run: the one after Largest, or a later one that is not yet due. -/
def firstGroup (skip : Nat) : Nat := t.largest.elim 0 (·.group + 1) + skip

/-- `_spawn_producers`. -/
def spawnProducers (p trackAlias skip : Nat) : Track :=
  { t with
    nextTask := t.nextTask + cfg.width
    tasks := fun i =>
      if t.nextTask ≤ i ∧ i < t.nextTask + cfg.width then
        some { run := t.nextTask, peer := p, trackAlias, subgroup := i - t.nextTask
               group := t.firstGroup skip, object := i - t.nextTask }
      else t.tasks i }

/-- `_start_generating`. -/
def startGenerating (p skip : Nat) : Track :=
  let sub := t.subs p
  if sub.finished ∨ sub.generating then t
  else (t.setSub p { sub with generating := true }).spawnProducers cfg p sub.trackAlias skip

/-- `_stop_producing`: the tasks are cancelled once no peer is generating. -/
def stopProducing (p : Nat) : Track :=
  let idle := t.setSub p { t.subs p with generating := false }
  if ∃ q < t.numSubs, (idle.subs q).generating then idle
  else { idle with tasks := fun i => (t.tasks i).map fun k => { k with cancelled := true } }

/-- A SUBSCRIBE that was admitted, its filter resolved to a window. -/
structure Subscribe where
  request : Nat
  forward : Option Bool
  start : Location
  endGroup : Option Nat
  endObject : Option Nat
  fill : Bool

/-- `_start_fill`: `fill` says that a non-empty fill range is asked for. -/
def startFill (p request : Nat) (fill : Bool) : Track :=
  let sub := t.subs p
  if fill ∧ sub.forward then
    { t.setSub p { sub with fillStreams := sub.fillStreams + 1 } with
      fills := t.fills ++ [(p, request)] }
  else t

/-- The fill task opens its stream. -/
def openFill (p request : Nat) : Track :=
  if (p, request) ∈ t.fills then
    { t with fills := t.fills.erase (p, request), filled := t.filled ++ [(p, request)] }
  else t

/-- `_on_subscribe`. -/
def onSubscribe (p : Nat) (msg : Subscribe) (skip : Nat) : Track :=
  let sub := t.subs p
  if sub.endsWithDone ∧ ∃ last ∈ msg.endGroup, ∃ loc ∈ t.largest, last < loc.group then t
  else if sub.finished then t.setSub p { sub with nextAlias := sub.nextAlias + 1 }
  else
    let bound := t.setSub p { sub with
      trackAlias := sub.nextAlias
      nextAlias := sub.nextAlias + 1
      subscribeRequest := some msg.request
      requests := sub.requests ++ [(msg.request, sub.nextAlias)]
      window := .range msg.start msg.endGroup msg.endObject }
    let forwarded := (bound.setForward p (some (msg.forward.getD true))).startFill p
      msg.request msg.fill
    if (forwarded.subs p).forward then forwarded.startGenerating cfg p skip else forwarded

/-- The filter of a REQUEST_UPDATE; `range` is what it resolves to.  From draft 20 on
an ended subscription keeps its mark. -/
def filtered (p : Nat) (range : Option (Location × Option Nat × Option Nat)) : Track :=
  match range, (t.subs p).window, (t.subs p).endsWithDone with
  | none, _, _ => t
  | some _, .ended, false | some _, .done, false => t.cutStreams p
  | some (start, endGroup, endObject), _, _ =>
      (t.setSub p { t.subs p with window := .range start endGroup endObject }).cutStreams p

/-- `_on_request_update` for a request that is bound. -/
def onRequestUpdate (p request : Nat) (forward : Option Bool)
    (range : Option (Location × Option Nat × Option Nat)) (fill : Bool) (skip : Nat) : Track :=
  if request ∈ (t.subs p).requests.map Prod.fst then
    let filtered := t.filtered p range
    let forwarded := (filtered.setForward p forward).startFill p request fill
    if forward = some true then forwarded.startGenerating cfg p skip else forwarded
  else t

/-- `_end_subscription` at the end of the track. -/
def endSubscription (p : Nat) : Track :=
  match (t.subs p).window with
  | .range _ _ _ =>
      let stopped := (t.setSub p ((t.subs p).ended .trackEnded)).stopProducing p
      stopped.finishRange p (stopped.subs p)
  | _ => t

/-- `end`: each peer's subscription ends, and its tasks are cancelled with the last. -/
def endTrack : Track := (List.range t.numSubs).foldl endSubscription t

/-- `_on_request_cancelled`: the fills of the peer are cancelled, and its producers stop
once its last subscriber goes. -/
def onRequestCancelled (p request : Nat) : Track :=
  let sub := t.subs p
  let left : Track := { t.setSub p { sub with requests := sub.requests.filter (·.1 ≠ request) } with
    fills := t.fills.filter (·.1 ≠ p) }
  if (left.subs p).requests = [] then left.stopProducing p else left

/-- STOP_SENDING for a stream: the session resets it, and the next write raises. -/
def stopSending (sid : Nat) : Track := t.closeStream sid [] .stopped

/-- A session closes. -/
def closeSession (p : Nat) : Track :=
  let closed := t.setSub p { t.subs p with closed := true }
  { closed with
    streams := fun sid =>
      let stream := t.streams sid
      if stream.peer = p ∧ stream.state = .opened then { stream with state := .lost }
      else stream }

end Track

/-! ## Runs -/

/-- What can happen to a generated track. -/
inductive Action where
  | addSession (endsWithDone : Bool)
  | subscribe (peer : Nat) (msg : Track.Subscribe) (skip : Nat)
  | update (peer request : Nat) (forward : Option Bool)
      (range : Option (Location × Option Nat × Option Nat)) (fill : Bool) (skip : Nat)
  | openFill (peer request : Nat)
  | cancel (peer request : Nat)
  | run (task : Nat) (stamp : Track.Stamp)
  | stopSending (stream : Nat)
  | closeSession (peer : Nat)
  | endTrack

/-- One step of a generated track. -/
def Track.step (cfg : Config) (t : Track) : Action → Track
  | .addSession endsWithDone =>
      { t.setSub t.numSubs { endsWithDone } with numSubs := t.numSubs + 1 }
  | .subscribe p msg skip => if p < t.numSubs then t.onSubscribe cfg p msg skip else t
  | .update p request forward range fill skip =>
      if p < t.numSubs then t.onRequestUpdate cfg p request forward range fill skip else t
  | .openFill p request => t.openFill p request
  | .cancel p request => if p < t.numSubs then t.onRequestCancelled p request else t
  | .run i stamp => t.runTask cfg i stamp
  | .stopSending sid => if sid < t.nextStream then t.stopSending sid else t
  | .closeSession p => if p < t.numSubs then t.closeSession p else t
  | .endTrack => t.endTrack

/-- The states of a generated track over the runs whose steps all meet `cond`, for any
draft of the first peer. -/
inductive Reached (cfg : Config) (cond : Track → Action → Prop) : Track → Prop
  | start (endsWithDone : Bool) : Reached cfg cond { subs := fun _ => { endsWithDone } }
  | step {t : Track} (run : Reached cfg cond t) (a : Action) (clear : cond t a) :
      Reached cfg cond (t.step cfg a)

end AioMoqt.Publisher
