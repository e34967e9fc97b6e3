import AioMoqt.Relay.FetchAnswer

/-!
# The fan-out of a relayed track

`_RelayedTrack` of `tools/moq_interop_relay.py`, with the part of `_backfill` and of
`_attach_subscriber` that changes it.  Objects come in on a callback and wait in a queue;
one task takes them off, caches them and hands each to the lane of every subscriber.  A
subscriber that joins with a replay is skipped until its REPLAY item comes up in the
queue, which hands it what is cached.

The cache of this model evicts nothing, and a lane takes all that it is offered.
-/

namespace AioMoqt.Relay

open AioMoqt.Messages AioMoqt.Lib.BigEndian

/-! ## Objects and offers -/

/-- How an object is framed: the flags of its subgroup stream, or a datagram. -/
inductive Shape where
  | stream (firstObject endOfGroup inherited : Bool)
  | datagram (endOfGroup : Bool)
deriving DecidableEq

/-- The tuple that `on_object` queues and `_remember` keeps. -/
structure RelayObject extends FetchTuple where
  shape : Option Shape

/-- The (group, subgroup) of an object. -/
def RelayObject.subgroup (o : RelayObject) : Nat × Int := (o.groupId, o.subgroupId)

def RelayObject.location (o : RelayObject) : Location := o.toFetchTuple.location

/-- The order of a replay. -/
def RelayObject.replayKey (o : RelayObject) : Nat ×ₗ Int ×ₗ Nat :=
  toLex (o.groupId, toLex (o.subgroupId, o.objectId))

/-- The marker ends its group or its track. -/
def RelayObject.isEnd (o : RelayObject) : Bool :=
  o.status = .endOfGroup ∨ o.status = .endOfTrack

/-- How a subgroup stream ended: "END", or "RESET" with a code. -/
inductive StreamEnd where
  | fin
  | reset (code : Nat)
deriving DecidableEq

/-- What a lane is offered; `live` is false for a replay. -/
inductive Offer where
  | object (live : Bool) (o : RelayObject)
  | streamEnd (live : Bool) (subgroup : Nat × Int) (how : StreamEnd)

def Offer.object? : Offer → Option RelayObject
  | object _ o => some o
  | streamEnd _ _ _ => none

/-! ## Subscribers -/

/-- A filter window: the Start Location, the End Group and the last object of it. -/
structure Window where
  start : Location := .mk 0 0
  endGroup : Option Nat := none
  endObject : Option Nat := none
deriving DecidableEq

/-- `_Downstream`.  `lane` is what its lane was offered so far, `filters` the compiled
Range Filters, and `endsWithDone` the `publish_done_subscription_ended` of its session.
`owed` records what came in since it joined and what was cached at its replay; no step
reads it. -/
structure Downstream where
  id : Nat
  session : Nat
  forward : Bool
  window : Window
  filters : Int → Nat → Int → Option KeyValuePairs → Bool
  endsWithDone : Bool
  replaying : Bool := false
  lane : List Offer := []
  owed : List RelayObject := []

namespace Downstream

variable (d : Downstream)

def admits (o : RelayObject) : Bool :=
  d.filters o.subgroupId o.objectId o.priority o.extensions

/-- Forward State 1 and inside the filter window. -/
def passes (loc : Location) : Bool :=
  d.forward && d.window.start ≤ loc &&
    match d.window.endGroup with
    | none => true
    | some endGroup =>
        loc.group < endGroup ||
          loc.group = endGroup && d.window.endObject.all (loc.object ≤ ·)

def pastEnd (group : Nat) : Bool := ∃ endGroup ∈ d.window.endGroup, endGroup < group

/-- The object lies in the window and passes the Range Filters. -/
def takes (o : RelayObject) : Bool := d.passes o.location && d.admits o

def offer (items : List Offer) : Downstream := { d with lane := d.lane ++ items }

/-- The objects its lane was offered, in order. -/
def objects : List RelayObject := d.lane.filterMap Offer.object?

/-- Their Locations. -/
def locations : List Location := d.objects.map RelayObject.location

def record (objs : List RelayObject) : Downstream := { d with owed := d.owed ++ objs }

/-- `end_downstream`: a session that knows SUBSCRIPTION_ENDED loses the subscription; from
draft 20 on only its streams close. -/
def ended : Option Downstream := if d.endsWithDone then none else some d

/-- The body of the loop over the subscribers, for an object. -/
def forwardObject (o : RelayObject) : Option Downstream :=
  if d.pastEnd o.groupId then d.ended
  else if ¬ d.passes o.location then some d
  else if ¬ d.admits o ∧ ¬ o.isEnd then some d
  else
    -- A filtered-out end marker still ends its stream.
    let out := if d.admits o then Offer.object true o else .streamEnd true o.subgroup .fin
    if d.window.endGroup = some o.groupId ∧ o.isEnd then (d.offer [out]).ended
    else some (d.offer [out])

/-- The same for the end of a stream. -/
def forwardEnd (subgroup : Nat × Int) (how : StreamEnd) : Option Downstream :=
  some (d.offer [.streamEnd true subgroup how])

end Downstream

/-! ## The track -/

/-- An entry of the queue; "REPLAY" names the subscriber it is for. -/
inductive QueueItem where
  | object (o : RelayObject)
  | streamEnd (subgroup : Nat × Int) (how : StreamEnd)
  | replay (id : Nat)
  | done

def QueueItem.object? : QueueItem → Option RelayObject
  | object o => some o
  | _ => none

/-- A FETCH that `_backfill` awaits: the `complete_from` it was computed for, and its
range. -/
structure Backfill where
  completeFrom : Location
  start : Location
  stop : Location
deriving DecidableEq

/-- `_RelayedTrack`.  `joined` counts the subscribers so far, `draining` says that the
drain task exists, and `released` are the subscribers the terminal let go of. -/
structure Track where
  queue : List QueueItem := []
  cache : List RelayObject := []
  backfilled : List Location := []
  streamsEnded : List (Nat × Int) := []
  opened : List (Nat × Int) := []
  downstream : List Downstream := []
  released : List Downstream := []
  joined : Nat := 0
  largest : Option Location := none
  completeFrom : Option Location := none
  upstreamFrom : Option Location := none
  backfills : List Backfill := []
  upstreamEnded : Nat := 0
  pendingDone : Option Nat := none
  resync : Bool := false
  attaching : Bool := false
  finished : Bool := false
  closed : Bool := false
  draining : Bool := false

/-- `CACHE_GROUPS`. -/
def cacheGroups : Nat := 8

namespace Track

variable (t : Track)

/-- The objects that wait in the queue. -/
def queued : List RelayObject := t.queue.filterMap QueueItem.object?

/-- `note_largest`. -/
def noteLargest (loc : Location) : Track :=
  { t with largest := some (t.largest.elim loc (max loc)) }

/-- `_ensure_drain`. -/
def ensureDrain : Track :=
  if t.finished ∨ t.closed ∨ t.attaching then t else { t with draining := true }

/-- What is queued is no longer held for a subscriber that attaches. -/
def unhold : Track := ensureDrain { t with attaching := false }

/-- FIRST_OBJECT holds for the object that opened the upstream stream only. -/
def shaped (o : RelayObject) : RelayObject :=
  match o.shape with
  | some (.stream first endOfGroup inherited) =>
      { o with shape := some (.stream (first && o.subgroup ∉ t.opened) endOfGroup inherited) }
  | _ => o

/-- The subgroups known to be open once `o` came in. -/
def opening (o : RelayObject) : List (Nat × Int) :=
  match o.shape with
  | some (.stream _ _ _) =>
      if o.subgroup ∈ t.opened then t.opened else t.opened ++ [o.subgroup]
  | _ => t.opened

/-- Objects before the first one after a pause went unsent. -/
def resynced (o : RelayObject) : Track :=
  if t.resync then { t with resync := false, completeFrom := some o.location } else t

/-- Objects for the subscriber still attaching count for Largest once drained. -/
def noted (o : RelayObject) : Track := if t.attaching then t else t.noteLargest o.location

/-- The object is queued. -/
def enqueue (o : RelayObject) : Track :=
  { t with
    opened := t.opening o
    queue := t.queue ++ [.object (t.shaped o)]
    downstream := t.downstream.map (·.record [t.shaped o]) }

/-- `on_object`. -/
def onObject (o : RelayObject) : Track :=
  if t.closed then t else (((t.resynced o).noted o).enqueue o).ensureDrain

/-- `_enqueue_terminal`. -/
def enqueueTerminal : Track := { t with pendingDone := none, queue := t.queue ++ [.done] }

/-- `_check_pending_done`. -/
def checkPendingDone : Track :=
  match t.pendingDone with
  | some need => if need ≤ t.upstreamEnded then t.enqueueTerminal else t
  | none => t

/-- The end of a stream, queued behind its objects; a FIN is noted for the replays. -/
def queueEnd (subgroup : Nat × Int) (how : StreamEnd) : Track :=
  ensureDrain { t with
    queue := t.queue ++ [.streamEnd subgroup how]
    streamsEnded := if how = .fin then t.streamsEnded ++ [subgroup] else t.streamsEnded }

/-- The upstream streams that ended, against the Stream Count of its PUBLISH_DONE. -/
def countEnd : Track := { t with upstreamEnded := t.upstreamEnded + 1 }

/-- `on_stream_end`, but for a malformed track. -/
def onStreamEnd (subgroup : Nat × Int) (how : StreamEnd) : Track :=
  (t.queueEnd subgroup how).countEnd.checkPendingDone

/-- `close`. -/
def close : Track :=
  { t with closed := true, draining := false, downstream := [], cache := [] }

/-- `finish`: every subscriber is ended, after what its lane holds. -/
def finish : Track := { t with finished := true }

/-- The subscribers `_release_downstream` lets go of. -/
def release : Track :=
  { t with released := t.released ++ t.downstream, downstream := [] }

/-- `on_stream_end` with MALFORMED_TRACK: the streams are reset and what the lanes hold
is dropped. -/
def onMalformed : Track := t.finish.close

/-- `_upstream_done`, and `note_upstream_done` with the Stream Count it reports. -/
def upstreamDone (streams : Nat) : Track :=
  if ¬ t.draining ∧ ¬ t.attaching then t.finish.close
  else if streams ≤ t.upstreamEnded then t.enqueueTerminal
  else { t with pendingDone := some streams }

/-- `_force_terminal`. -/
def forceTerminal : Track := if t.pendingDone.isSome then t.enqueueTerminal else t

/-! ### Joins -/

/-- A subscriber as it joins. -/
def fresh (d : Downstream) (replay : Bool) : Downstream :=
  { d with id := t.joined, replaying := replay, lane := [], owed := [] }

/-- The subscriber joins, its replay behind what is queued. -/
def enroll (d : Downstream) (replay : Bool) : Track :=
  { t with
    attaching := false
    joined := t.joined + 1
    downstream := t.downstream ++ [t.fresh d replay]
    queue := t.queue ++ if replay then [.replay t.joined] else [] }

/-- `add_downstream`. -/
def addDownstream (d : Downstream) (replay : Bool) : Track := (t.enroll d replay).ensureDrain

/-- `_attach_subscriber`, from the window on: none that ends before Largest, and a replay
for one that starts at or before it. -/
def attachSubscriber (d : Downstream) : Track :=
  if ∃ endGroup ∈ d.window.endGroup, ∃ largest ∈ t.largest, endGroup < largest.group then
    t.unhold
  else t.addDownstream d (∃ largest ∈ t.largest, d.window.start ≤ largest)

/-- A PUBLISH offer that was accepted. -/
def acceptOffer (d : Downstream) : Track := t.addDownstream d t.largest.isSome

/-- `drop_session`. -/
def dropSession (session : Nat) : Track :=
  { t with downstream := t.downstream.filter (·.session ≠ session) }

/-! ### Backfills -/

/-- The groups of the cache before `complete_from`, in order. -/
def seenGroups (cf : Location) : List Nat :=
  ((t.cache.map (·.groupId)).dedup.filter (· < cf.group)).mergeSort

/-- The cache's reach: `CACHE_GROUPS` groups, by the ids it has seen below `cf`. -/
def reach (cf : Location) : Nat :=
  let seen := t.seenGroups cf
  let span := cf.group + 1 - cacheGroups
  (seen.drop (seen.length - (cacheGroups - 1))).head?.elim span (min span)

/-- Where `_backfill` starts. -/
def backfillStart (cf want : Location) : Location :=
  if want < t.upstreamFrom.getD cf then max want (.mk (t.reach cf) 0)
  else max want (.mk cf.group 0)

/-- `cache_covers`. -/
def cacheCovers (start : Location) : Bool := ∃ first ∈ t.cache.head?, first.location ≤ start

/-- `_backfill` up to its FETCH, for a subscription that starts at `want`; `sources` says
that some publisher can serve one. -/
def backfill (want : Location) (sources : Bool) : Track :=
  match t.completeFrom with
  | none => t
  | some cf =>
      let start := t.backfillStart cf want
      if cf ≤ start ∨ t.cacheCovers start ∨ ¬ sources then t
      else
        -- FETCH End is the last object plus one; object 0 is the whole group.
        let stop := if cf.object = 0 then .mk (cf.group - 1) 0 else cf
        { t with backfills := t.backfills ++ [⟨cf, start, stop⟩] }

/-- The fetched objects the cache does not hold. -/
def newObjects (objs : List FetchTuple) : List RelayObject :=
  (objs.filter fun o => o.location ∉ t.cache.map RelayObject.location).map
    fun o => { o with shape := none }

/-- `_prune`, over a cache that evicts nothing. -/
def prune : Track :=
  match t.cache.head? with
  | none => t
  | some first => { t with
      streamsEnded := t.streamsEnded.filter (first.groupId ≤ ·.1)
      opened := t.opened.filter (first.groupId ≤ ·.1)
      backfilled := t.backfilled.filter (first.groupId ≤ ·.group) }

/-- The answer to a backfill is for the track as it stands. -/
def answers (req : Backfill) : Prop :=
  t.completeFrom = some req.completeFrom ∧ t.closed = false ∧ t.finished = false

instance (req : Backfill) : Decidable (t.answers req) := inferInstanceAs (Decidable (_ ∧ _))

/-- The cache with what a backfill brought, in Location order. -/
def stored (new : List RelayObject) : Track :=
  prune { t with cache := (new ++ t.cache).mergeSort fun a b => a.location ≤ b.location }

/-- What a backfill fetched, once it is in the cache: the live copies are to be dropped,
and the groups before `complete_from` came whole. -/
def backfillHeld (req : Backfill) (new : List RelayObject) : Track :=
  { t with
    backfilled := t.backfilled ++ new.map RelayObject.location
    streamsEnded := t.streamsEnded ++
      (new.filter (·.groupId < req.completeFrom.group)).map RelayObject.subgroup
    completeFrom := some req.start
    upstreamFrom := some (min (t.upstreamFrom.getD req.completeFrom) req.start)
    downstream := t.downstream.map (·.record new) }

/-- `_backfill` from the answer to its FETCH on. -/
def fetched (req : Backfill) (objs : List FetchTuple) : Track :=
  if t.answers req then
    (t.stored (t.newObjects objs)).backfillHeld req (t.newObjects objs)
  else t

/-! ### The drain -/

/-- `_remember`, with room for the object. -/
def remember (o : RelayObject) : Track :=
  prune (noteLargest { t with cache := t.cache ++ [o] } o.location)

/-- What `_replay` takes of the cache: the objects inside the window, by (group, subgroup,
object). -/
def replayObjects (d : Downstream) : List RelayObject :=
  (t.cache.filter d.takes).mergeSort fun a b => a.replayKey ≤ b.replayKey

/-- What `_replay` offers: those objects, then the end of the subgroups that the publisher
has ended. -/
def replayItems (d : Downstream) : List Offer :=
  let objs := t.replayObjects d
  let subgroups := (objs.map RelayObject.subgroup).dedup.filter (· ∈ t.streamsEnded)
  objs.map (Offer.object false) ++
    (subgroups.mergeSort fun a b => toLex a ≤ toLex b).map (Offer.streamEnd false · .fin)

/-- A subscriber after its `_replay`. -/
def replayed (d : Downstream) : Downstream :=
  { d.offer (t.replayItems d) with replaying := false, owed := d.owed ++ t.cache }

/-- `_replay`. -/
def replay (id : Nat) : Track :=
  { t with downstream := t.downstream.map fun d => if d.id = id then t.replayed d else d }

/-- The loop over the subscribers: those that wait for their replay are skipped, and the
sessions found dead dropped. -/
def fanOut (live : Nat → Bool) (forward : Downstream → Option Downstream) : Track :=
  let dead := (t.downstream.filter fun d => ¬ d.replaying ∧ ¬ live d.session).map (·.session)
  { t with
    downstream := (t.downstream.filter (·.session ∉ dead)).filterMap fun d =>
      if d.replaying then some d else forward d }

/-- The terminal: replays still queued behind it go first. -/
def terminate : Track :=
  let replayed : Track := { t with
    downstream := t.downstream.map fun d => if d.replaying then t.replayed d else d }
  { replayed.finish.release with cache := [], draining := false }

/-- One turn of `_forward_loop`, with the item it took off the queue. -/
def forward (live : Nat → Bool) : QueueItem → Track
  | .done => t.terminate
  | .replay id => if t.finished then t else t.replay id
  | .object o =>
      if t.finished then t
      else if o.location ∈ t.backfilled then
        { t with backfilled := t.backfilled.filter (· ≠ o.location) }
      else (t.remember o).fanOut live (·.forwardObject o)
  | .streamEnd subgroup how =>
      if t.finished then t else t.fanOut live (·.forwardEnd subgroup how)

/-- `_forward_loop` takes the next item; `live` is `_session_live` by then. -/
def drain (live : Nat → Bool) : Track :=
  if t.draining then
    match t.queue with
    | [] => t
    | item :: rest => forward { t with queue := rest } live item
  else t

end Track

/-! ## Runs -/

/-- What can happen to a track. -/
inductive Action where
  | hold
  | unhold
  | established (largest completeFrom upstreamFrom : Option Location)
  | resumed
  | object (o : RelayObject)
  | streamEnd (subgroup : Nat × Int) (how : StreamEnd)
  | malformed
  | subscribe (d : Downstream)
  | accept (d : Downstream)
  | dropSession (session : Nat)
  | backfill (want : Location) (sources : Bool)
  | fetched (req : Backfill) (objs : Option (List FetchTuple))
  | drain (live : Nat → Bool)
  | upstreamDone (streams : Nat)
  | forceTerminal
  | close

namespace Track

variable (t : Track)

/-- One step of a track.  `hold` and `unhold` bracket the awaits of a SUBSCRIBE that
establishes or resumes the track, and `established` is what the reply brings.  `resumed` is
`_resume_paused` of a track that has had objects; without, it brings what `established` does. -/
def step : Action → Track
  | .hold => { t with attaching := true }
  | .unhold => t.unhold
  | .established largest cf uf =>
      let noted := largest.elim t t.noteLargest
      { noted with completeFrom := cf, upstreamFrom := uf }
  | .resumed => { t with resync := true, completeFrom := none }
  | .object o => t.onObject o
  | .streamEnd subgroup how => t.onStreamEnd subgroup how
  | .malformed => t.onMalformed
  | .subscribe d => t.attachSubscriber d
  | .accept d => t.acceptOffer d
  | .dropSession session => t.dropSession session
  | .backfill want sources => t.backfill want sources
  | .fetched req none => { t with backfills := t.backfills.erase req }
  | .fetched req (some objs) =>
      if req ∈ t.backfills then
        fetched { t with backfills := t.backfills.erase req } req objs
      else t
  | .drain live => t.drain live
  | .upstreamDone streams => t.upstreamDone streams
  | .forceTerminal => t.forceTerminal
  | .close => t.close

/-- The objects a step takes from upstream. -/
def received : Action → List RelayObject
  | .object o => if t.closed then [] else [t.shaped o]
  | _ => []

end Track

/-- The states of a track over the runs whose steps all meet `cond`, with the objects it
took from upstream so far. -/
inductive Reached (cond : Track → Action → Prop) : List RelayObject → Track → Prop
  | start : Reached cond [] {}
  | step {arrived : List RelayObject} {t : Track} (run : Reached cond arrived t) (a : Action)
      (clear : cond t a) : Reached cond (arrived ++ t.received a) (t.step a)

end AioMoqt.Relay
