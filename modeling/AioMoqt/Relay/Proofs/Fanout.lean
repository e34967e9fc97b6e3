import AioMoqt.Relay.Proofs.Fanout.Drain

/-!
# Each relayed object is offered once

The queue position of a replay splits the objects of a track between the replay and the
live path, so a subscriber is offered each of them once, unless a backfill brings one that
it should get live.
-/

namespace AioMoqt.Relay

open AioMoqt.Messages

namespace Track

/-! ## Runs -/

section Run

variable {arrived : List RelayObject} {t t' : Track}

/-- A step that leaves the queue, the cache and the subscribers as they are. -/
theorem Invariant.same (hi : t.Invariant arrived) (hqueue : t'.queue = t.queue)
    (hcache : t'.cache = t.cache) (hback : t'.backfilled = t.backfilled)
    (hdown : t'.downstream = t.downstream) (hreleased : t'.released = t.released)
    (hjoined : t'.joined = t.joined) (hfin : t'.finished = t.finished)
    (hclosed : t'.closed = t.closed) : t'.Invariant arrived := by
  apply hi.quiet
  · exact ⟨by rw [Track.queued, hqueue, Track.queued], by rw [Track.replays, hqueue, Track.replays],
      hback, hjoined, hreleased, downstream_refl (hdown ▸ List.Subset.refl _),
      fun h => hfin.trans h⟩
  · exact fun h h' => ⟨hfin ▸ h, hclosed ▸ h', hcache⟩

theorem unhold_invariant (hi : t.Invariant arrived) : t.unhold.Invariant arrived := by
  apply Invariant.ensureDrain
  exact hi.same rfl rfl rfl rfl rfl rfl rfl rfl

theorem attachSubscriber_invariant (hi : t.Invariant arrived) (d : Downstream) :
    (t.attachSubscriber d).Invariant arrived := by
  unfold attachSubscriber
  split
  · exact unhold_invariant hi
  · exact addDownstream_invariant hi d _

theorem backfill_invariant (hi : t.Invariant arrived) (want : Location) (sources : Bool) :
    (t.backfill want sources).Invariant arrived := by
  unfold backfill
  split
  · exact hi
  · dsimp only
    split
    · exact hi
    · exact hi.same rfl rfl rfl rfl rfl rfl rfl rfl

theorem upstreamDone_invariant (hi : t.Invariant arrived) (streams : Nat) :
    (t.upstreamDone streams).Invariant arrived := by
  unfold upstreamDone
  split
  · exact close_invariant (finish_invariant hi)
  · split
    · exact enqueueTerminal_invariant hi
    · exact hi.same rfl rfl rfl rfl rfl rfl rfl rfl

theorem forceTerminal_invariant (hi : t.Invariant arrived) :
    t.forceTerminal.Invariant arrived := by
  unfold forceTerminal
  split
  · exact enqueueTerminal_invariant hi
  · exact hi

/-- One step keeps the invariant. -/
theorem step_invariant (hi : t.Invariant arrived) (hd : t.Drained) {a : Action}
    (hclear : t.Clear a) : (t.step a).Invariant (arrived ++ t.received a) := by
  have hnil : ∀ {t' : Track}, t'.Invariant arrived → t'.Invariant (arrived ++ []) := fun h =>
    (List.append_nil arrived).symm ▸ h
  cases a with
  | hold => exact hnil (hi.same rfl rfl rfl rfl rfl rfl rfl rfl)
  | unhold => exact hnil (unhold_invariant hi)
  | established largest cf uf =>
      apply hnil
      cases largest <;> exact hi.same rfl rfl rfl rfl rfl rfl rfl rfl
  | resumed => exact hnil (hi.same rfl rfl rfl rfl rfl rfl rfl rfl)
  | object o => exact onObject_invariant hi hclear
  | streamEnd subgroup how =>
      exact hnil (checkPendingDone_invariant (countEnd_invariant
        (queueEnd_invariant hi subgroup how)))
  | malformed => exact hnil (close_invariant (finish_invariant hi))
  | subscribe d => exact hnil (attachSubscriber_invariant hi d)
  | accept d => exact hnil (addDownstream_invariant hi d _)
  | dropSession session =>
      apply hnil
      apply hi.quiet
      · exact ⟨rfl, rfl, rfl, rfl, rfl, downstream_refl List.filter_sublist.subset, id⟩
      · exact fun hfin hclosed => ⟨hfin, hclosed, rfl⟩
  | backfill want sources => exact hnil (backfill_invariant hi want sources)
  | fetched req objs =>
      have herased : ({ t with backfills := t.backfills.erase req } : Track).Invariant arrived :=
        hi.same rfl rfl rfl rfl rfl rfl rfl rfl
      cases objs with
      | none => exact hnil herased
      | some objs =>
          apply hnil
          by_cases hreq : req ∈ t.backfills
          · rw [step, if_pos hreq]
            exact fetched_invariant herased fun hanswers =>
              let h := hclear hreq hanswers
              ⟨h.distinct, h.unseen, h.copy, h.whole⟩
          · rw [step, if_neg hreq]
            exact hi
  | drain live => exact hnil (drain_invariant hi hd live)
  | upstreamDone streams => exact hnil (upstreamDone_invariant hi streams)
  | forceTerminal => exact hnil (forceTerminal_invariant hi)
  | close => exact hnil (close_invariant hi)

theorem onObject_drained (hd : t.Drained) (o : RelayObject) : (t.onObject o).Drained := by
  unfold onObject
  split
  · exact hd
  · apply Drained.ensureDrain
    unfold resynced noted
    split <;> split <;> exact hd.opened

theorem dropSession_drained (hd : t.Drained) (session : Nat) :
    (t.dropSession session).Drained := by
  refine ⟨hd.opened, fun h => hd.drained ?_⟩
  rcases h with h | h | h
  · exact Or.inl h
  · apply Or.inr (Or.inl _)
    intro hnone
    exact h (by simp [dropSession, hnone])
  · exact Or.inr (Or.inr h)

theorem backfill_drained (hd : t.Drained) (want : Location) (sources : Bool) :
    (t.backfill want sources).Drained := by
  unfold backfill
  split
  · exact hd
  · dsimp only
    split
    · exact hd
    · exact ⟨hd.opened, hd.drained⟩

theorem prune_drained (hd : t.Drained) : t.prune.Drained := by
  unfold prune
  split
  · exact hd
  · exact ⟨hd.opened, hd.drained⟩

theorem backfillHeld_drained (hd : t.Drained) (req : Backfill) (new : List RelayObject) :
    (t.backfillHeld req new).Drained := by
  refine ⟨hd.opened, fun h => hd.drained ?_⟩
  rcases h with h | h | h
  · exact Or.inl h
  · apply Or.inr (Or.inl _)
    intro hnone
    exact h (by simp [backfillHeld, hnone])
  · exact Or.inr (Or.inr h)

theorem fetched_drained (hd : t.Drained) (req : Backfill) (objs : List FetchTuple) :
    (t.fetched req objs).Drained := by
  unfold fetched
  split
  · apply backfillHeld_drained
    apply prune_drained
    exact ⟨hd.opened, hd.drained⟩
  · exact hd

theorem upstreamDone_drained (hd : t.Drained) (streams : Nat) :
    (t.upstreamDone streams).Drained := by
  unfold upstreamDone
  split
  · exact close_drained _
  · next hnot =>
      have hruns : t.draining ∨ t.attaching ∨ t.finished ∨ t.closed := by
        by_cases hdraining : t.draining = true
        · exact Or.inl hdraining
        · exact Or.inr (Or.inl (not_not.mp fun h => hnot ⟨hdraining, h⟩))
      split
      · exact enqueueTerminal_drained hd hruns
      · exact ⟨hd.opened, fun _ => hruns⟩

theorem forceTerminal_drained (hd : t.Drained) : t.forceTerminal.Drained := by
  unfold forceTerminal
  split
  · next hpending => exact enqueueTerminal_drained hd (hd.drained (Or.inr (Or.inr hpending)))
  · exact hd

theorem attachSubscriber_drained (hd : t.Drained) (d : Downstream) :
    (t.attachSubscriber d).Drained := by
  unfold attachSubscriber
  split <;> exact Drained.ensureDrain hd.opened

theorem onStreamEnd_drained (hd : t.Drained) (subgroup : Nat × Int) (how : StreamEnd) :
    (t.onStreamEnd subgroup how).Drained := by
  have hqueued : (t.queueEnd subgroup how).Drained := Drained.ensureDrain hd.opened
  have hcounted : (t.queueEnd subgroup how).countEnd.Drained :=
    ⟨hqueued.opened, hqueued.drained⟩
  exact checkPendingDone_drained hcounted

/-- One step leaves the drain running while there is something to drain. -/
theorem step_drained (hd : t.Drained) (a : Action) : (t.step a).Drained := by
  cases a with
  | hold => exact ⟨hd.opened, fun _ => Or.inr (Or.inl rfl)⟩
  | unhold => exact Drained.ensureDrain hd.opened
  | established largest cf uf => cases largest <;> exact ⟨hd.opened, hd.drained⟩
  | resumed => exact ⟨hd.opened, hd.drained⟩
  | object o => exact onObject_drained hd o
  | streamEnd subgroup how => exact onStreamEnd_drained hd subgroup how
  | malformed => exact close_drained _
  | subscribe d => exact attachSubscriber_drained hd d
  | accept d => exact Drained.ensureDrain hd.opened
  | dropSession session => exact dropSession_drained hd session
  | backfill want sources => exact backfill_drained hd want sources
  | fetched req objs =>
      cases objs with
      | none => exact ⟨hd.opened, hd.drained⟩
      | some objs =>
          by_cases hreq : req ∈ t.backfills
          · rw [step, if_pos hreq]
            apply fetched_drained
            exact ⟨hd.opened, hd.drained⟩
          · rw [step, if_neg hreq]
            exact hd
  | drain live => exact drain_drained hd live
  | upstreamDone streams => exact upstreamDone_drained hd streams
  | forceTerminal => exact forceTerminal_drained hd
  | close => exact close_drained t

theorem start_invariant : ({} : Track).Invariant [] := by
  constructor
  · constructor <;> simp [replays, subscribers]
  · intro _ _
    constructor <;> simp [Track.queued, Track.waiting]
  · simp [Ordered, subscribers]

/-- Along a run whose steps meet the condition, the invariant holds. -/
theorem reached_invariant (h : Reached Clear arrived t) : t.Invariant arrived ∧ t.Drained := by
  induction h with
  | start => exact ⟨start_invariant, by simp, by simp⟩
  | step run a clear ih => exact ⟨step_invariant ih.1 ih.2 clear, step_drained ih.2 a⟩

end Run

end Track

/-! ## What a run offers -/

/-- In every state of a run whose steps meet the condition, every subscriber was offered
what it is owed once, by its replay or live, in order. -/
theorem relayed_of_clear {arrived : List RelayObject} {t : Track}
    (h : Reached Track.Clear arrived t) : t.Relayed arrived := by
  obtain ⟨⟨hs, -, ho⟩, hd⟩ := Track.reached_invariant h
  refine ⟨fun d hd => ⟨?_, ho d hd⟩, fun hqueue => hd.drained (Or.inl hqueue)⟩
  have hnodup := hs.once d hd
  constructor
  · exact fun loc => List.nodup_iff_count_le_one.mp hnodup loc
  · exact hs.taken d hd
  · intro hreplaying
    rcases List.mem_append.mp hd with hd | hd
    · exact ⟨hs.untouched d hd hreplaying, (hs.pending d hd).mp hreplaying⟩
    · rw [(hs.gone d hd).1] at hreplaying
      exact absurd hreplaying Bool.false_ne_true
  · intro hreplaying o ho' htakes
    by_cases hoff : o.location ∈ d.locations
    · exact Or.inl (List.count_eq_one_of_mem hnodup hoff)
    · apply Or.inr
      exact ⟨List.count_eq_zero_of_not_mem hoff,
        (hs.owed d hd hreplaying o ho' htakes).resolve_left hoff⟩

/-! ### A live copy that is dropped -/

def plainObject (group : Nat) (subgroup : Int) (object : Nat) : RelayObject where
  groupId := group
  subgroupId := subgroup
  objectId := object
  payload := []
  extensions := none
  priority := 128
  status := .normal
  shape := none

/-- A subscriber with no end and no Range Filter. -/
def plainSubscriber (start : Location) : Downstream where
  id := 0
  session := 1
  forward := true
  window := { start }
  filters := fun _ _ _ _ => true
  endsWithDone := true

/-- The backfill of group 5 up to object 3, where delivery resumed. -/
def groupHead : Backfill := ⟨.mk 5 3, .mk 5 0, .mk 5 3⟩

/-- A subscriber takes group 5 live from object 3 on, where delivery resumed.  A second one asks for
the head of the group: the answer to its backfill comes while object 4 is queued, which it then gets
from its replay. -/
theorem relayed_of_clear_live :
    (List.foldl Track.step {} [.established (some (.mk 5 2)) (some (.mk 5 3)) (some (.mk 5 3)),
      .subscribe (plainSubscriber (.mk 5 3)), .object (plainObject 5 0 3), .drain fun _ => true,
      .object (plainObject 5 0 4), .backfill (.mk 5 0) true,
      .fetched groupHead (some [(plainObject 5 0 1).toFetchTuple]),
      .subscribe (plainSubscriber (.mk 5 0)), .drain fun _ => true, .drain fun _ => true]).Relayed
        [plainObject 5 0 3, plainObject 5 0 4] := by
  have hjoined := (Reached.start.step
    (.established (some (.mk 5 2)) (some (.mk 5 3)) (some (.mk 5 3))) trivial).step
    (.subscribe (plainSubscriber (.mk 5 3))) (show Track.Clear _ _ from trivial)
  have hlive := hjoined.step (.object (plainObject 5 0 3)) (by
    intro _
    constructor
    · decide
    · decide
    · exact fun h => absurd h List.not_mem_nil
    · exact fun c hc => absurd hc List.not_mem_nil
    · exact fun _ c hc => absurd hc List.not_mem_nil)
  have hqueued := (hlive.step (.drain fun _ => true) trivial).step (.object (plainObject 5 0 4)) (by
    intro _
    constructor
    · decide
    · decide
    · exact fun h => absurd h List.not_mem_nil
    · suffices hother : ∀ c ∈ Track.cache _, ¬ c.location = _ from
        fun c hc hsame => absurd hsame (hother c hc)
      decide
    · exact fun _ c _ hheld => absurd hheld List.not_mem_nil)
  have hasked := hqueued.step (.backfill (.mk 5 0) true) trivial
  have hanswered := hasked.step (.fetched groupHead (some [(plainObject 5 0 1).toFetchTuple])) (by
    intro _ _
    constructor
    · decide +kernel
    · decide +kernel
    · suffices hother : ∀ o ∈ Track.newObjects _ _, ∀ q ∈ Track.queued _, ¬ q.location = o.location from
        fun o ho q hq hsame => absurd hsame (hother o ho q hq)
      decide +kernel
    · decide +kernel)
  have hsecond := hanswered.step (.subscribe (plainSubscriber (.mk 5 0)))
    (show Track.Clear _ _ from trivial)
  exact relayed_of_clear ((hsecond.step (.drain fun _ => true) trivial).step
    (.drain fun _ => true) trivial)

/-- Delivery resumes at object 3 of group 5, for a subscriber whose own backfill fails.
Object 1, of another subgroup, comes late, and a second subscriber's backfill asks for
it. -/
def resumedActions : List Action :=
  [.established (some (.mk 4 9)) (some (.mk 5 0)) (some (.mk 5 0)), .resumed, .hold,
    .object (plainObject 5 1 3), .backfill (.mk 5 0) true, .fetched groupHead none,
    .subscribe (plainSubscriber (.mk 5 0)), .drain fun _ => true, .object (plainObject 5 0 1),
    .backfill (.mk 5 0) true]

def resumedTrack : Track := resumedActions.foldl Track.step {}

theorem reached_of_actions (actions : List Action) {arrived : List RelayObject} {t : Track}
    (h : Reached (fun _ _ => True) arrived t) :
    ∃ more, Reached (fun _ _ => True) more (actions.foldl Track.step t) := by
  induction actions generalizing arrived t with
  | nil => exact ⟨arrived, h⟩
  | cons a actions ih => exact ih (h.step a trivial)

theorem sorted_pair {a b : RelayObject} (h : a.location ≤ b.location) :
    ([a, b].mergeSort fun a b => a.location ≤ b.location) = [a, b] := by
  simp [List.mergeSort, List.MergeSort.Internal.splitInTwo, h]

/-- The answer to the backfill comes before the drain gets to object 1. -/
def missedTrack : Track :=
  (resumedTrack.step (.fetched groupHead (some [(plainObject 5 0 1).toFetchTuple]))).step
    (.drain fun _ => true)

/-- Its live copy is dropped, for the first subscriber too. -/
theorem missedTrack_eq : missedTrack = { resumedTrack with
    queue := []
    cache := [plainObject 5 0 1, plainObject 5 1 3]
    streamsEnded := []
    opened := []
    completeFrom := some (.mk 5 0)
    backfills := []
    downstream := resumedTrack.downstream.map (·.record [plainObject 5 0 1]) } := by
  have hstep : resumedTrack.step
      (.fetched groupHead (some [(plainObject 5 0 1).toFetchTuple])) =
      Track.fetched { resumedTrack with backfills := [] } groupHead
        [(plainObject 5 0 1).toFetchTuple] := by
    have hasked : groupHead ∈ resumedTrack.backfills := by decide
    rw [Track.step, if_pos hasked]
    rfl
  have hfetched : Track.fetched { resumedTrack with backfills := [] } groupHead
      [(plainObject 5 0 1).toFetchTuple] =
      (Track.stored { resumedTrack with backfills := [] } [plainObject 5 0 1]).backfillHeld
        groupHead [plainObject 5 0 1] := if_pos (by decide)
  have hstored : Track.stored { resumedTrack with backfills := [] } [plainObject 5 0 1] =
      { resumedTrack with
        backfills := [], cache := [plainObject 5 0 1, plainObject 5 1 3] } := by
    have hcache : resumedTrack.cache = [plainObject 5 1 3] := rfl
    unfold Track.stored
    dsimp only
    rw [hcache, List.singleton_append, sorted_pair (by decide)]
    rfl
  rw [missedTrack, hstep, hfetched, hstored]
  rfl

theorem not_relayed_of_backfill :
    ¬ ∀ arrived t, Reached (fun _ _ => True) arrived t → t.Relayed arrived := by
  intro h
  obtain ⟨arrived, hrun⟩ := reached_of_actions resumedActions Reached.start
  have hmissed : Reached _ _ missedTrack :=
    (hrun.step (.fetched groupHead (some [(plainObject 5 0 1).toFetchTuple])) trivial).step
      (.drain fun _ => true) trivial
  have hrelayed := (h _ _ hmissed).1
  rw [missedTrack_eq] at hrelayed
  have hoffered := (hrelayed _ List.mem_cons_self).1.after rfl (plainObject 5 0 1)
    (by exact List.mem_cons_self) rfl
  rcases hoffered with hcount | ⟨-, hwaiting⟩
  · exact absurd hcount (by decide)
  · exact absurd hwaiting List.not_mem_nil

end AioMoqt.Relay
