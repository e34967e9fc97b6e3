import AioMoqt.Relay.Fanout

/-!
# The invariant of the fan-out

What waits in the queue and what the cache holds never overlap, but for the copies of
objects that a backfill fetched, and a lane was offered nothing that the cache does not
hold.  Steps that add no object keep this, and so do joins.
-/

namespace AioMoqt.Relay

open AioMoqt.Messages

/-! ## The property and its condition -/

/-- Two copies of one object: no filter tells them apart. -/
def RelayObject.Alike (a b : RelayObject) : Prop :=
  a.location = b.location ∧ a.subgroupId = b.subgroupId ∧ a.priority = b.priority ∧
    a.extensions = b.extensions

/-- The objects of a subgroup ascend. -/
def Ascends (objs : List RelayObject) (subgroup : Nat × Int) : Prop :=
  (objs.filter (·.subgroup = subgroup)).Pairwise fun a b => a.location < b.location

def QueueItem.replay? : QueueItem → Option Nat
  | replay id => some id
  | _ => none

namespace Track

variable (t : Track)

/-- The queued objects that the drain will forward. -/
def waiting : List RelayObject := t.queued.filter (·.location ∉ t.backfilled)

/-- The subscribers that the REPLAY items of the queue are for. -/
def replays : List Nat := t.queue.filterMap QueueItem.replay?

/-- The subscribers that are attached, or that the terminal let go of. -/
def subscribers : List Downstream := t.downstream ++ t.released

/-- A subscriber was offered nothing twice and nothing it does not take.  Before its
replay it was offered nothing; after it, an object it is owed and takes was offered once,
or it still waits in the queue and was not offered yet. -/
structure OfferedOnce (d : Downstream) : Prop where
  once : ∀ loc, d.locations.count loc ≤ 1
  taken : ∀ o ∈ d.objects, d.takes o
  before : d.replaying = true → d.objects = [] ∧ d.id ∈ t.replays
  after : d.replaying = false → ∀ o ∈ d.owed, d.takes o →
    d.locations.count o.location = 1 ∨ d.locations.count o.location = 0 ∧ o ∈ t.waiting

/-- Every subscriber was offered what it is owed, each subgroup in ascending order if it
arrived so, and what is queued is being drained or held for a subscriber. -/
def Relayed (arrived : List RelayObject) : Prop :=
  (∀ d ∈ t.subscribers, t.OfferedOnce d ∧
    ∀ subgroup, Ascends arrived subgroup → Ascends d.objects subgroup) ∧
  (t.queue ≠ [] → t.draining ∨ t.attaching ∨ t.finished ∨ t.closed)

/-- An object may come in: its Location did not come in before, and if a backfill brought
it, the subscribers past their replay that take it were offered it.  A fetched copy is of
the same object, and one that is not received yet has no later one of its subgroup
fetched. -/
structure ClearObject (o : RelayObject) : Prop where
  fresh : o.location ∉ t.queued.map RelayObject.location
  held : o.location ∈ t.cache.map RelayObject.location → o.location ∈ t.backfilled
  offered : o.location ∈ t.backfilled → ∀ d ∈ t.downstream, d.replaying = false →
    d.takes o → o.location ∈ d.locations
  copy : ∀ c ∈ t.cache, c.location = o.location → o.Alike c
  behind : o.location ∉ t.backfilled → ∀ c ∈ t.cache, c.location ∈ t.backfilled →
    c.subgroup = o.subgroup → c.location < o.location

/-- A backfill may be stored: no subscriber past its replay takes an object of it.  It
names no Location twice, the queued copies are of the same objects, and a queued object
of a subgroup is not passed over for a later one. -/
structure ClearBackfill (new : List RelayObject) : Prop where
  distinct : (new.map RelayObject.location).Nodup
  unseen : ∀ d ∈ t.downstream, d.replaying = false → ∀ o ∈ new, d.takes o = false
  copy : ∀ o ∈ new, ∀ q ∈ t.queued, q.location = o.location → q.Alike o
  whole : ∀ o ∈ new, ∀ q ∈ t.waiting, q.subgroup = o.subgroup → q.location < o.location →
    q.location ∈ new.map RelayObject.location

/-- The condition on a step. -/
def Clear : Action → Prop
  | .object o => t.closed = false → t.ClearObject (t.shaped o)
  | .fetched req (some objs) =>
      req ∈ t.backfills → t.answers req → t.ClearBackfill (t.newObjects objs)
  | _ => True

end Track

/-! ## Offers -/

theorem RelayObject.Alike.subgroup_eq {a b : RelayObject} (h : a.Alike b) :
    a.subgroup = b.subgroup := by
  obtain ⟨hloc, hsub, -, -⟩ := h
  have hgroup : a.groupId = b.groupId := congrArg Location.group hloc
  simp only [RelayObject.subgroup, hgroup, hsub]

namespace Downstream

variable {d d' : Downstream} {o : RelayObject}

theorem takes_of_alike {a b : RelayObject} (h : a.Alike b) : d.takes a = d.takes b := by
  obtain ⟨hloc, hsub, hprio, hexts⟩ := h
  have hobject : a.objectId = b.objectId := congrArg Location.object hloc
  simp only [takes, admits, hloc, hsub, hobject, hprio, hexts]

/-- What a subscriber takes does not depend on what it was offered. -/
structure Same (d d' : Downstream) : Prop where
  id : d'.id = d.id
  replaying : d'.replaying = d.replaying
  owed : d'.owed = d.owed
  takes : d'.takes = d.takes

theorem offer_same (items : List Offer) : Same d (d.offer items) := ⟨rfl, rfl, rfl, rfl⟩

@[simp] theorem objects_offer (items : List Offer) :
    (d.offer items).objects = d.objects ++ items.filterMap Offer.object? :=
  List.filterMap_append

@[simp] theorem takes_record (objs : List RelayObject) : (d.record objs).takes = d.takes := rfl

theorem ended_eq_some (h : d.ended = some d') : d' = d := by
  unfold ended at h
  split at h
  · simp at h
  · exact (Option.some.inj h).symm

/-- A window that an object lies in does not end before its group. -/
theorem not_pastEnd_of_passes (h : d.passes o.location = true) : d.pastEnd o.groupId = false := by
  unfold passes at h
  unfold pastEnd
  cases hend : d.window.endGroup with
  | none => simp
  | some endGroup =>
      simp only [hend, Bool.and_eq_true, Bool.or_eq_true, decide_eq_true_eq] at h
      have hgroup : o.location.group = o.groupId := rfl
      simp only [Option.mem_def, Option.some.injEq, exists_eq_left', decide_eq_false_iff_not,
        Nat.not_lt]
      omega

/-- An object is offered to a subscriber that takes it, and to no other. -/
theorem forwardObject_eq_some (h : d.forwardObject o = some d') :
    Same d d' ∧ d'.objects = d.objects ++ if d.takes o then [o] else [] := by
  unfold forwardObject at h
  by_cases hpass : d.passes o.location = true
  swap
  · have htakes : d.takes o = false := by simp [takes, hpass]
    have heq : d' = d := by
      split at h
      · exact ended_eq_some h
      · exact (Option.some.inj h).symm
    subst heq
    simp only [htakes, Bool.false_eq_true, if_false, List.append_nil, and_true]
    exact ⟨rfl, rfl, rfl, rfl⟩
  rw [if_neg (by simp [not_pastEnd_of_passes hpass]), if_neg (by simp [hpass])] at h
  by_cases hadmits : d.admits o = true
  · have htakes : d.takes o = true := by simp [takes, hpass, hadmits]
    rw [if_neg (by simp [hadmits])] at h
    have heq : d' = d.offer [.object true o] := by
      rw [if_pos hadmits] at h
      split at h
      · exact ended_eq_some h
      · exact (Option.some.inj h).symm
    subst heq
    rw [if_pos htakes]
    exact ⟨offer_same _, objects_offer _⟩
  · have htakes : d.takes o = false := by simp [takes, hadmits]
    rw [if_neg (by simp [htakes])]
    split at h
    · obtain rfl := Option.some.inj h
      exact ⟨⟨rfl, rfl, rfl, rfl⟩, (List.append_nil _).symm⟩
    · have heq : d' = d.offer [.streamEnd true o.subgroup .fin] := by
        split at h
        · exact ended_eq_some h
        · exact (Option.some.inj h).symm
      subst heq
      exact ⟨offer_same _, objects_offer _⟩

end Downstream

/-! ## The invariant -/

namespace Track

/-- What holds of every state. -/
structure Settled (t : Track) : Prop where
  ids : ∀ d ∈ t.downstream, d.id < t.joined
  replayIds : ∀ id ∈ t.replays, id < t.joined
  replaysNodup : t.replays.Nodup
  pending : ∀ d ∈ t.downstream, d.replaying = true ↔ d.id ∈ t.replays
  untouched : ∀ d ∈ t.downstream, d.replaying = true → d.objects = []
  gone : ∀ d ∈ t.released, d.replaying = false ∧ t.finished = true
  once : ∀ d ∈ t.subscribers, d.locations.Nodup
  taken : ∀ d ∈ t.subscribers, ∀ o ∈ d.objects, d.takes o
  owed : ∀ d ∈ t.subscribers, d.replaying = false → ∀ o ∈ d.owed, d.takes o →
    o.location ∈ d.locations ∨ o ∈ t.waiting

/-- The drain runs while something is queued, unless it is held. -/
structure Drained (t : Track) : Prop where
  opened : t.draining = true → t.finished = false ∧ t.closed = false
  drained : t.queue ≠ [] ∨ t.downstream ≠ [] ∨ t.pendingDone.isSome →
    t.draining ∨ t.attaching ∨ t.finished ∨ t.closed

/-- What holds of the cache and the queue while the track is open. -/
structure Flowing (arrived : List RelayObject) (t : Track) : Prop where
  cacheNodup : (t.cache.map RelayObject.location).Nodup
  queueNodup : (t.queued.map RelayObject.location).Nodup
  held : ∀ loc ∈ t.backfilled, loc ∈ t.cache.map RelayObject.location
  first : ∀ first ∈ t.cache.head?, ∀ loc ∈ t.backfilled, first.groupId ≤ loc.group
  apart : ∀ q ∈ t.waiting, q.location ∉ t.cache.map RelayObject.location
  copies : ∀ q ∈ t.queued, ∀ c ∈ t.cache, q.location = c.location → q.Alike c
  offered : ∀ d ∈ t.downstream, ∀ o ∈ d.objects, o ∈ t.cache
  somewhere : ∀ d ∈ t.downstream, ∀ o ∈ d.owed, (∃ c ∈ t.cache, o.Alike c) ∨ o ∈ t.waiting
  arrivals : t.queued <:+ arrived
  came : ∀ c ∈ t.cache, c.location ∉ t.backfilled →
    ∃ a ∈ arrived, a.location = c.location ∧ a.subgroup = c.subgroup
  ahead : ∀ subgroup, Ascends arrived subgroup → ∀ c ∈ t.cache, ∀ q ∈ t.waiting,
    c.subgroup = subgroup → q.subgroup = subgroup → c.location < q.location

/-- The offers of a subgroup that arrives in ascending order ascend. -/
def Ordered (arrived : List RelayObject) (t : Track) : Prop :=
  ∀ d ∈ t.subscribers, ∀ subgroup, Ascends arrived subgroup → Ascends d.objects subgroup

/-- The invariant of a run, but for the drain. -/
structure Invariant (arrived : List RelayObject) (t : Track) : Prop where
  settled : t.Settled
  flowing : t.finished = false → t.closed = false → t.Flowing arrived
  ordered : t.Ordered arrived

/-! ## Steps that add no object -/

section Quiet

variable {arrived : List RelayObject} {t t' : Track}

theorem mem_waiting {q : RelayObject} :
    q ∈ t.waiting ↔ q ∈ t.queued ∧ q.location ∉ t.backfilled := by
  simp [waiting]

/-- No object comes or goes, and no subscriber comes. -/
structure Quiet (t t' : Track) : Prop where
  queued : t'.queued = t.queued
  replays : t'.replays = t.replays
  backfilled : t'.backfilled = t.backfilled
  joined : t'.joined = t.joined
  released : t'.released = t.released
  downstream : ∀ d' ∈ t'.downstream, ∃ d ∈ t.downstream, d.Same d' ∧ d'.objects = d.objects
  finished : t.finished = true → t'.finished = true

theorem downstream_refl {ds ds' : List Downstream} (h : ds' ⊆ ds) :
    ∀ d' ∈ ds', ∃ d ∈ ds, d.Same d' ∧ d'.objects = d.objects :=
  fun d' hd' => ⟨d', h hd', ⟨rfl, rfl, rfl, rfl⟩, rfl⟩

theorem Quiet.waiting (h : Quiet t t') : t'.waiting = t.waiting := by
  simp only [Track.waiting, h.queued, h.backfilled]

theorem Quiet.subscribers (h : Quiet t t') {d' : Downstream} (hd' : d' ∈ t'.subscribers) :
    ∃ d ∈ t.subscribers, d.Same d' ∧ d'.objects = d.objects := by
  rcases List.mem_append.mp hd' with hd' | hd'
  · obtain ⟨d, hd, hsame⟩ := h.downstream d' hd'
    exact ⟨d, List.mem_append_left _ hd, hsame⟩
  · exact ⟨d', List.mem_append_right _ (h.released ▸ hd'), ⟨rfl, rfl, rfl, rfl⟩, rfl⟩

theorem Settled.quiet (hs : t.Settled) (h : Quiet t t') : t'.Settled := by
  constructor
  case ids =>
    intro d' hd'
    obtain ⟨d, hd, hsame, -⟩ := h.downstream d' hd'
    rw [h.joined, hsame.id]
    exact hs.ids d hd
  case replayIds =>
    rw [h.replays, h.joined]
    exact hs.replayIds
  case replaysNodup =>
    rw [h.replays]
    exact hs.replaysNodup
  case pending =>
    intro d' hd'
    obtain ⟨d, hd, hsame, -⟩ := h.downstream d' hd'
    rw [h.replays, hsame.id, hsame.replaying]
    exact hs.pending d hd
  case untouched =>
    intro d' hd'
    obtain ⟨d, hd, hsame, hobjects⟩ := h.downstream d' hd'
    rw [hsame.replaying, hobjects]
    exact hs.untouched d hd
  case gone =>
    intro d hd
    have hgone := hs.gone d (h.released ▸ hd)
    exact ⟨hgone.1, h.finished hgone.2⟩
  case once =>
    intro d' hd'
    obtain ⟨d, hd, -, hobjects⟩ := h.subscribers hd'
    rw [Downstream.locations, hobjects]
    exact hs.once d hd
  case taken =>
    intro d' hd'
    obtain ⟨d, hd, hsame, hobjects⟩ := h.subscribers hd'
    rw [hobjects, hsame.takes]
    exact hs.taken d hd
  case owed =>
    intro d' hd'
    obtain ⟨d, hd, hsame, hobjects⟩ := h.subscribers hd'
    rw [Downstream.locations, hobjects, hsame.takes, hsame.replaying, hsame.owed, h.waiting]
    exact hs.owed d hd

theorem Flowing.quiet (hf : t.Flowing arrived) (h : Quiet t t') (hcache : t'.cache = t.cache) :
    t'.Flowing arrived where
  cacheNodup := hcache ▸ hf.cacheNodup
  queueNodup := h.queued ▸ hf.queueNodup
  held := by rw [h.backfilled, hcache]; exact hf.held
  first := by rw [h.backfilled, hcache]; exact hf.first
  apart := by rw [h.waiting, hcache]; exact hf.apart
  copies := by rw [h.queued, hcache]; exact hf.copies
  offered := by
    intro d' hd'
    obtain ⟨d, hd, -, hobjects⟩ := h.downstream d' hd'
    rw [hobjects, hcache]
    exact hf.offered d hd
  somewhere := by
    intro d' hd'
    obtain ⟨d, hd, hsame, -⟩ := h.downstream d' hd'
    rw [hsame.owed, h.waiting, hcache]
    exact hf.somewhere d hd
  arrivals := h.queued ▸ hf.arrivals
  came := by rw [h.backfilled, hcache]; exact hf.came
  ahead := by rw [h.waiting, hcache]; exact hf.ahead

theorem Ordered.quiet (ho : t.Ordered arrived) (h : Quiet t t') : t'.Ordered arrived := by
  intro d' hd'
  obtain ⟨d, hd, -, hobjects⟩ := h.subscribers hd'
  rw [hobjects]
  exact ho d hd

/-- A quiet step that keeps the cache of an open track keeps the invariant. -/
theorem Invariant.quiet (hi : t.Invariant arrived) (h : Quiet t t')
    (hopen : t'.finished = false → t'.closed = false →
      t.finished = false ∧ t.closed = false ∧ t'.cache = t.cache) :
    t'.Invariant arrived where
  settled := hi.settled.quiet h
  flowing hfin hclosed := by
    obtain ⟨hfin, hclosed, hcache⟩ := hopen hfin hclosed
    exact (hi.flowing hfin hclosed).quiet h hcache
  ordered := hi.ordered.quiet h

theorem Invariant.ensureDrain (hi : t.Invariant arrived) : t.ensureDrain.Invariant arrived := by
  unfold Track.ensureDrain
  split
  · exact hi
  · exact hi.quiet ⟨rfl, rfl, rfl, rfl, rfl, downstream_refl fun _ h => h, id⟩
      fun hfin hclosed => ⟨hfin, hclosed, rfl⟩

theorem Drained.ensureDrain (h : t.draining = true → t.finished = false ∧ t.closed = false) :
    t.ensureDrain.Drained := by
  unfold Track.ensureDrain
  split
  · next hheld =>
      refine ⟨h, fun _ => ?_⟩
      rcases hheld with hheld | hheld | hheld <;> simp [hheld]
  · next hheld =>
      simp only [not_or, Bool.not_eq_true] at hheld
      exact ⟨fun _ => ⟨hheld.1, hheld.2.1⟩, fun _ => Or.inl rfl⟩

theorem enqueueTerminal_invariant (hi : t.Invariant arrived) :
    t.enqueueTerminal.Invariant arrived := by
  apply hi.quiet
  · exact ⟨by simp [Track.queued, enqueueTerminal, QueueItem.object?],
      by simp [Track.replays, enqueueTerminal, QueueItem.replay?], rfl, rfl, rfl,
      downstream_refl fun _ h => h, id⟩
  · exact fun hfin hclosed => ⟨hfin, hclosed, rfl⟩

theorem close_invariant (hi : t.Invariant arrived) : t.close.Invariant arrived := by
  apply hi.quiet
  · exact ⟨rfl, rfl, rfl, rfl, rfl, downstream_refl (List.nil_subset _), id⟩
  · simp [Track.close]

theorem close_drained (t : Track) : t.close.Drained :=
  ⟨by simp [Track.close], by simp [Track.close]⟩

theorem finish_invariant (hi : t.Invariant arrived) : t.finish.Invariant arrived := by
  apply hi.quiet
  · exact ⟨rfl, rfl, rfl, rfl, rfl, downstream_refl fun _ h => h, fun _ => rfl⟩
  · simp [Track.finish]

theorem queueEnd_invariant (hi : t.Invariant arrived) (subgroup : Nat × Int) (how : StreamEnd) :
    (t.queueEnd subgroup how).Invariant arrived := by
  apply Invariant.ensureDrain
  apply hi.quiet
  · exact ⟨by simp [Track.queued, QueueItem.object?], by simp [Track.replays, QueueItem.replay?],
      rfl, rfl, rfl, downstream_refl fun _ h => h, id⟩
  · exact fun hfin hclosed => ⟨hfin, hclosed, rfl⟩

theorem countEnd_invariant (hi : t.Invariant arrived) : t.countEnd.Invariant arrived := by
  apply hi.quiet
  · exact ⟨rfl, rfl, rfl, rfl, rfl, downstream_refl fun _ h => h, id⟩
  · exact fun hfin hclosed => ⟨hfin, hclosed, rfl⟩

theorem checkPendingDone_invariant (hi : t.Invariant arrived) :
    t.checkPendingDone.Invariant arrived := by
  unfold checkPendingDone
  split
  · split
    · exact enqueueTerminal_invariant hi
    · exact hi
  · exact hi

/-- A terminal is queued while the drain runs or is held. -/
theorem enqueueTerminal_drained (hd : t.Drained)
    (hruns : t.draining ∨ t.attaching ∨ t.finished ∨ t.closed) : t.enqueueTerminal.Drained :=
  ⟨hd.opened, fun _ => hruns⟩

theorem checkPendingDone_drained (hd : t.Drained) : t.checkPendingDone.Drained := by
  unfold checkPendingDone
  split
  · next need hneed =>
      split
      · exact enqueueTerminal_drained hd (hd.drained (Or.inr (Or.inr (by simp [hneed]))))
      · exact hd
  · exact hd

end Quiet

/-! ## Joins -/

section Join

variable {arrived : List RelayObject} {t : Track}

theorem queued_enroll (t : Track) (d : Downstream) (replay : Bool) :
    (t.enroll d replay).queued = t.queued := by
  cases replay <;> simp [Track.queued, enroll, QueueItem.object?]

theorem waiting_enroll (t : Track) (d : Downstream) (replay : Bool) :
    (t.enroll d replay).waiting = t.waiting := by
  rw [Track.waiting, queued_enroll]
  rfl

theorem replays_enroll (t : Track) (d : Downstream) (replay : Bool) :
    (t.enroll d replay).replays = t.replays ++ if replay then [t.joined] else [] := by
  cases replay <;> simp [Track.replays, enroll, QueueItem.replay?]

theorem mem_downstream_enroll {d d' : Downstream} {replay : Bool} :
    d' ∈ (t.enroll d replay).downstream ↔ d' ∈ t.downstream ∨ d' = t.fresh d replay := by
  simp [enroll]

theorem mem_subscribers_enroll {d d' : Downstream} {replay : Bool} :
    d' ∈ (t.enroll d replay).subscribers ↔ d' ∈ t.subscribers ∨ d' = t.fresh d replay := by
  simp only [Track.subscribers, List.mem_append, mem_downstream_enroll]
  exact or_right_comm

theorem Settled.enroll (hs : t.Settled) (d : Downstream) (replay : Bool) :
    (t.enroll d replay).Settled := by
  have hnew : t.joined ∉ t.replays := fun h => Nat.lt_irrefl _ (hs.replayIds _ h)
  constructor
  case ids =>
    intro d' hd'
    rcases mem_downstream_enroll.mp hd' with hd' | rfl
    · exact Nat.lt_succ_of_lt (hs.ids d' hd')
    · exact Nat.lt_succ_self _
  case replayIds =>
    intro id hid
    rw [replays_enroll] at hid
    rcases List.mem_append.mp hid with hid | hid
    · exact Nat.lt_succ_of_lt (hs.replayIds id hid)
    · have hid : id = t.joined := by cases replay <;> simp_all
      rw [hid]
      exact Nat.lt_succ_self _
  case replaysNodup =>
    rw [replays_enroll]
    cases replay
    · simpa using hs.replaysNodup
    · simpa [List.nodup_append] using ⟨hs.replaysNodup, fun a ha he => hnew (he ▸ ha)⟩
  case pending =>
    intro d' hd'
    rw [replays_enroll]
    rcases mem_downstream_enroll.mp hd' with hd' | rfl
    · have hne : d'.id ≠ t.joined := Nat.ne_of_lt (hs.ids d' hd')
      rw [hs.pending d' hd']
      cases replay <;> simp [hne]
    · cases replay <;> simp [fresh, hnew]
  case untouched =>
    intro d' hd' hreplaying
    rcases mem_downstream_enroll.mp hd' with hd' | rfl
    · exact hs.untouched d' hd' hreplaying
    · rfl
  case gone => exact hs.gone
  case once =>
    intro d' hd'
    rcases mem_subscribers_enroll.mp hd' with hd' | rfl
    · exact hs.once d' hd'
    · exact List.nodup_nil
  case taken =>
    intro d' hd'
    rcases mem_subscribers_enroll.mp hd' with hd' | rfl
    · exact hs.taken d' hd'
    · simp [fresh, Downstream.objects]
  case owed =>
    intro d' hd'
    rw [waiting_enroll]
    rcases mem_subscribers_enroll.mp hd' with hd' | rfl
    · exact hs.owed d' hd'
    · simp [fresh]

theorem Flowing.enroll (hf : t.Flowing arrived) (d : Downstream) (replay : Bool) :
    (t.enroll d replay).Flowing arrived where
  __ := hf
  queueNodup := by rw [queued_enroll]; exact hf.queueNodup
  apart := by rw [waiting_enroll]; exact hf.apart
  copies := by rw [queued_enroll]; exact hf.copies
  offered := by
    intro d' hd'
    rcases mem_downstream_enroll.mp hd' with hd' | rfl
    · exact hf.offered d' hd'
    · simp [fresh, Downstream.objects]
  somewhere := by
    intro d' hd'
    rw [waiting_enroll]
    rcases mem_downstream_enroll.mp hd' with hd' | rfl
    · exact hf.somewhere d' hd'
    · simp [fresh]
  arrivals := by rw [queued_enroll]; exact hf.arrivals
  ahead := by rw [waiting_enroll]; exact hf.ahead

theorem addDownstream_invariant (hi : t.Invariant arrived) (d : Downstream) (replay : Bool) :
    (t.addDownstream d replay).Invariant arrived := by
  apply Invariant.ensureDrain
  constructor
  · exact hi.settled.enroll d replay
  · exact fun hfin hclosed => (hi.flowing hfin hclosed).enroll d replay
  · intro d' hd'
    rcases mem_subscribers_enroll.mp hd' with hd' | rfl
    · exact hi.ordered d' hd'
    · intro subgroup _
      exact List.Pairwise.nil

end Join

end Track

end AioMoqt.Relay
