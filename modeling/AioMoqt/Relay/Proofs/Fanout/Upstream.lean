import AioMoqt.Lib.Dict
import AioMoqt.Relay.Proofs.Fanout.Invariant

/-!
# Objects that reach a relayed track

An object comes in on the callback, or a backfill fetched it.
-/

namespace AioMoqt.Relay

open AioMoqt.Messages

namespace Track

/-! ## An object comes in -/

section Object

variable {arrived : List RelayObject} {t : Track} {o : RelayObject}

/-- The queue and the subscribers once an object came in. -/
structure Takes (t : Track) (o : RelayObject) (t' : Track) : Prop where
  queue : t'.queue = t.queue ++ [.object o]
  downstream : t'.downstream = t.downstream.map (·.record [o])
  cache : t'.cache = t.cache
  backfilled : t'.backfilled = t.backfilled
  joined : t'.joined = t.joined
  released : t'.released = t.released
  finished : t'.finished = t.finished
  closed : t'.closed = t.closed

variable {t' : Track}

theorem Takes.queued (h : Takes t o t') : t'.queued = t.queued ++ [o] := by
  simp [Track.queued, h.queue, QueueItem.object?]

theorem Takes.replays (h : Takes t o t') : t'.replays = t.replays := by
  simp [Track.replays, h.queue, QueueItem.replay?]

theorem Takes.mem_waiting (h : Takes t o t') {q : RelayObject} :
    q ∈ t'.waiting ↔ q ∈ t.waiting ∨ q = o ∧ o.location ∉ t.backfilled := by
  simp only [Track.mem_waiting, h.queued, h.backfilled, List.mem_append, List.mem_singleton]
  constructor
  · rintro ⟨hq | rfl, hnew⟩
    · exact Or.inl ⟨hq, hnew⟩
    · exact Or.inr ⟨rfl, hnew⟩
  · rintro (⟨hq, hnew⟩ | ⟨rfl, hnew⟩)
    · exact ⟨Or.inl hq, hnew⟩
    · exact ⟨Or.inr rfl, hnew⟩

theorem Takes.mem_downstream (h : Takes t o t') {d' : Downstream} (hd : d' ∈ t'.downstream) :
    ∃ d ∈ t.downstream, d' = d.record [o] := by
  rw [h.downstream, List.mem_map] at hd
  obtain ⟨d, hd, rfl⟩ := hd
  exact ⟨d, hd, rfl⟩

/-- A subscriber after an object came in was one before, with the same offers. -/
theorem Takes.mem_subscribers (h : Takes t o t') {d' : Downstream} (hd : d' ∈ t'.subscribers) :
    ∃ d ∈ t.subscribers, d'.objects = d.objects ∧ d'.takes = d.takes ∧
      d'.replaying = d.replaying ∧
      (d'.owed = d.owed ∨ d ∈ t.downstream ∧ d'.owed = d.owed ++ [o]) := by
  rcases List.mem_append.mp hd with hd | hd
  · obtain ⟨d, hattached, rfl⟩ := h.mem_downstream hd
    exact ⟨d, List.mem_append_left _ hattached, rfl, rfl, rfl, Or.inr ⟨hattached, rfl⟩⟩
  · rw [h.released] at hd
    exact ⟨d', List.mem_append_right _ hd, rfl, rfl, rfl, Or.inl rfl⟩

theorem Settled.takes (hs : t.Settled) (hclear : t.ClearObject o) (h : Takes t o t') :
    t'.Settled := by
  constructor
  case ids =>
    intro d' hd'
    obtain ⟨d, hd, rfl⟩ := h.mem_downstream hd'
    rw [h.joined]
    exact hs.ids d hd
  case replayIds =>
    rw [h.replays, h.joined]
    exact hs.replayIds
  case replaysNodup =>
    rw [h.replays]
    exact hs.replaysNodup
  case pending =>
    intro d' hd'
    obtain ⟨d, hd, rfl⟩ := h.mem_downstream hd'
    rw [h.replays]
    exact hs.pending d hd
  case untouched =>
    intro d' hd'
    obtain ⟨d, hd, rfl⟩ := h.mem_downstream hd'
    exact hs.untouched d hd
  case gone =>
    rw [h.released, h.finished]
    exact hs.gone
  case once =>
    intro d' hd'
    obtain ⟨d, hd, hobjects, -, -, -⟩ := h.mem_subscribers hd'
    rw [Downstream.locations, hobjects]
    exact hs.once d hd
  case taken =>
    intro d' hd'
    obtain ⟨d, hd, hobjects, htakes, -, -⟩ := h.mem_subscribers hd'
    rw [hobjects, htakes]
    exact hs.taken d hd
  case owed =>
    intro d' hd' hreplaying o' ho' hto'
    obtain ⟨d, hd, hobjects, htakes, hrep, howed⟩ := h.mem_subscribers hd'
    rw [htakes] at hto'
    rw [hrep] at hreplaying
    rw [Downstream.locations, hobjects, h.mem_waiting]
    have hold : o' ∈ d.owed → o'.location ∈ d.locations ∨
        o' ∈ t.waiting ∨ o' = o ∧ o.location ∉ t.backfilled := fun hmem =>
      (hs.owed d hd hreplaying o' hmem hto').imp_right Or.inl
    rcases howed with howed | ⟨hattached, howed⟩
    · rw [howed] at ho'
      exact hold ho'
    · rw [howed] at ho'
      rcases List.mem_append.mp ho' with ho' | ho'
      · exact hold ho'
      · obtain rfl := List.mem_singleton.mp ho'
        by_cases hback : o'.location ∈ t.backfilled
        · exact Or.inl (hclear.offered hback d hattached hreplaying hto')
        · exact Or.inr (Or.inr ⟨rfl, hback⟩)

theorem ascends_append {objs more : List RelayObject} {subgroup : Nat × Int}
    (h : Ascends (objs ++ more) subgroup) : Ascends objs subgroup := by
  rw [Ascends, List.filter_append] at h
  exact (List.pairwise_append.mp h).1

/-- An object of an ascending subgroup is ahead of those that came before it. -/
theorem lt_of_ascends {objs : List RelayObject} {a : RelayObject}
    (h : Ascends (objs ++ [o]) o.subgroup) (ha : a ∈ objs) (hsub : a.subgroup = o.subgroup) :
    a.location < o.location := by
  rw [Ascends, List.filter_append] at h
  apply (List.pairwise_append.mp h).2.2
  · simpa using ⟨ha, hsub⟩
  · simp

theorem Flowing.takes (hf : t.Flowing arrived) (hclear : t.ClearObject o) (h : Takes t o t') :
    t'.Flowing (arrived ++ [o]) := by
  constructor
  case cacheNodup =>
    rw [h.cache]
    exact hf.cacheNodup
  case queueNodup =>
    rw [h.queued, List.map_append, List.nodup_append]
    refine ⟨hf.queueNodup, List.nodup_singleton _, ?_⟩
    intro a ha b hb he
    rw [List.map_singleton, List.mem_singleton] at hb
    exact hclear.fresh (hb ▸ he ▸ ha)
  case held =>
    rw [h.backfilled, h.cache]
    exact hf.held
  case first =>
    rw [h.backfilled, h.cache]
    exact hf.first
  case apart =>
    intro q hq
    rw [h.cache]
    rcases h.mem_waiting.mp hq with hq | ⟨rfl, hback⟩
    · exact hf.apart q hq
    · exact fun hheld => hback (hclear.held hheld)
  case copies =>
    intro q hq c hc he
    rw [h.queued] at hq
    rw [h.cache] at hc
    rcases List.mem_append.mp hq with hq | hq
    · exact hf.copies q hq c hc he
    · obtain rfl := List.mem_singleton.mp hq
      exact hclear.copy c hc he.symm
  case offered =>
    intro d' hd'
    obtain ⟨d, hd, rfl⟩ := h.mem_downstream hd'
    rw [h.cache]
    exact hf.offered d hd
  case somewhere =>
    intro d' hd' o' ho'
    obtain ⟨d, hd, rfl⟩ := h.mem_downstream hd'
    rw [h.cache, h.mem_waiting]
    rcases List.mem_append.mp ho' with ho' | ho'
    · exact (hf.somewhere d hd o' ho').imp_right Or.inl
    · obtain rfl := List.mem_singleton.mp ho'
      by_cases hback : o'.location ∈ t.backfilled
      · obtain ⟨c, hc, he⟩ := List.mem_map.mp (hf.held _ hback)
        exact Or.inl ⟨c, hc, hclear.copy c hc he⟩
      · exact Or.inr (Or.inr ⟨rfl, hback⟩)
  case arrivals =>
    rw [h.queued]
    obtain ⟨before, hbefore⟩ := hf.arrivals
    exact ⟨before, by rw [← hbefore, List.append_assoc]⟩
  case came =>
    intro c hc hback
    rw [h.cache] at hc
    rw [h.backfilled] at hback
    obtain ⟨a, ha, he⟩ := hf.came c hc hback
    exact ⟨a, List.mem_append_left _ ha, he⟩
  case ahead =>
    intro subgroup hasc c hc q hq hcsub hqsub
    rw [h.cache] at hc
    rcases h.mem_waiting.mp hq with hq | ⟨rfl, hnew⟩
    · exact hf.ahead subgroup (ascends_append hasc) c hc q hq hcsub hqsub
    -- The object that came in is ahead of the fetched ones by the condition, and of the
    -- others because they came before it.
    · by_cases hback : c.location ∈ t.backfilled
      · exact hclear.behind hnew c hc hback (hcsub.trans hqsub.symm)
      · obtain ⟨a, ha, hloc, hsub⟩ := hf.came c hc hback
        rw [← hloc]
        exact lt_of_ascends (hqsub ▸ hasc) ha (hsub.trans (hcsub.trans hqsub.symm))

theorem Ordered.takes (ho : t.Ordered arrived) (h : Takes t o t') :
    t'.Ordered (arrived ++ [o]) := by
  intro d' hd' subgroup hasc
  obtain ⟨d, hd, hobjects, -, -, -⟩ := h.mem_subscribers hd'
  rw [hobjects]
  exact ho d hd subgroup (ascends_append hasc)

theorem enqueue_takes (t : Track) (o : RelayObject) :
    Takes t (t.shaped o) (((t.resynced o).noted o).enqueue o) := by
  unfold resynced noted
  split <;> split <;> exact ⟨rfl, rfl, rfl, rfl, rfl, rfl, rfl, rfl⟩

theorem onObject_invariant (hi : t.Invariant arrived)
    (hclear : t.closed = false → t.ClearObject (t.shaped o)) :
    (t.onObject o).Invariant (arrived ++ t.received (.object o)) := by
  unfold onObject
  by_cases hclosed : t.closed = true
  · have hnone : t.received (.object o) = [] := if_pos hclosed
    rw [if_pos hclosed, hnone, List.append_nil]
    exact hi
  · have hone : t.received (.object o) = [t.shaped o] := if_neg hclosed
    rw [if_neg hclosed, hone]
    rw [Bool.not_eq_true] at hclosed
    have hclear := hclear hclosed
    have htakes := enqueue_takes t o
    apply Invariant.ensureDrain
    constructor
    · exact hi.settled.takes hclear htakes
    · intro hfin _
      exact (hi.flowing (htakes.finished ▸ hfin) hclosed).takes hclear htakes
    · exact hi.ordered.takes htakes

end Object

/-! ## A backfill is stored -/

section Backfill

variable {arrived new : List RelayObject} {t t' : Track}

/-- `_prune` forgets no fetched Location while the cache starts at or before them. -/
theorem prune_backfilled
    (h : ∀ first ∈ t.cache.head?, ∀ loc ∈ t.backfilled, first.groupId ≤ loc.group) :
    t.prune.backfilled = t.backfilled := by
  unfold prune
  split
  · rfl
  · next first hfirst =>
      apply List.filter_eq_self.mpr
      intro loc hloc
      exact decide_eq_true (h first hfirst loc hloc)

theorem prune_fields (t : Track) :
    t.prune.queue = t.queue ∧ t.prune.cache = t.cache ∧ t.prune.downstream = t.downstream ∧
      t.prune.joined = t.joined ∧ t.prune.released = t.released ∧
      t.prune.finished = t.finished ∧ t.prune.closed = t.closed ∧
      t.prune.draining = t.draining := by
  unfold prune
  split <;> simp

/-- The cache, the queue and the subscribers once a backfill was stored. -/
structure Stores (t : Track) (new : List RelayObject) (t' : Track) : Prop where
  queue : t'.queue = t.queue
  cache : t'.cache.Perm (new ++ t.cache)
  sorted : t'.cache.Pairwise fun a b => a.location ≤ b.location
  backfilled : t'.backfilled = t.backfilled ++ new.map RelayObject.location
  downstream : t'.downstream = t.downstream.map (·.record new)
  joined : t'.joined = t.joined
  released : t'.released = t.released
  finished : t'.finished = t.finished

theorem head_group_le {objs : List RelayObject}
    (hsorted : objs.Pairwise fun a b => a.location ≤ b.location) {first o : RelayObject}
    (hfirst : first ∈ objs.head?) (ho : o ∈ objs) : first.groupId ≤ o.groupId := by
  cases objs with
  | nil => simp at hfirst
  | cons a rest =>
      obtain rfl : a = first := by simpa using hfirst
      rcases List.mem_cons.mp ho with rfl | ho
      · exact Nat.le_refl _
      · have hle := (List.pairwise_cons.mp hsorted).1 o ho
        have hle := Location.le_iff.mp hle
        simp only [RelayObject.location, FetchTuple.location, Location.group_mk] at hle
        omega

theorem stores_backfill (hf : t.Flowing arrived) (req : Backfill) :
    Stores t new ((t.stored new).backfillHeld req new) := by
  have hsorted : ((new ++ t.cache).mergeSort fun a b => a.location ≤ b.location).Pairwise
      fun a b => a.location ≤ b.location :=
    Lib.pairwise_mergeSort_rel
      (fun a b c (hab : a.location ≤ b.location) (hbc : b.location ≤ c.location) => hab.trans hbc)
      (fun a b => le_total a.location b.location) _
  have hperm := List.mergeSort_perm (new ++ t.cache) fun a b => a.location ≤ b.location
  have hback : (t.stored new).backfilled = t.backfilled := by
    apply prune_backfilled
    intro first hfirst loc hloc
    obtain ⟨c, hc, rfl⟩ := List.mem_map.mp (hf.held loc hloc)
    exact head_group_le hsorted hfirst (hperm.mem_iff.mpr (List.mem_append_right _ hc))
  obtain ⟨hqueue, hcache, hdown, hjoined, hreleased, hfin, -⟩ := prune_fields
    { t with cache := (new ++ t.cache).mergeSort fun a b => a.location ≤ b.location }
  constructor
  · exact hqueue
  · exact hcache ▸ hperm
  · exact hcache ▸ hsorted
  · exact congrArg (· ++ _) hback
  · exact congrArg (List.map _) hdown
  · exact hjoined
  · exact hreleased
  · exact hfin

theorem Stores.queued (h : Stores t new t') : t'.queued = t.queued := by
  rw [Track.queued, h.queue, Track.queued]

theorem Stores.replays (h : Stores t new t') : t'.replays = t.replays := by
  rw [Track.replays, h.queue, Track.replays]

theorem Stores.mem_cache (h : Stores t new t') {c : RelayObject} :
    c ∈ t'.cache ↔ c ∈ new ∨ c ∈ t.cache := by
  rw [h.cache.mem_iff, List.mem_append]

theorem Stores.mem_waiting (h : Stores t new t') {q : RelayObject} :
    q ∈ t'.waiting ↔ q ∈ t.waiting ∧ q.location ∉ new.map RelayObject.location := by
  rw [Track.mem_waiting, Track.mem_waiting, h.queued, h.backfilled, List.mem_append, not_or,
    and_assoc]

theorem Stores.mem_downstream (h : Stores t new t') {d' : Downstream}
    (hd : d' ∈ t'.downstream) : ∃ d ∈ t.downstream, d' = d.record new := by
  rw [h.downstream, List.mem_map] at hd
  obtain ⟨d, hd, rfl⟩ := hd
  exact ⟨d, hd, rfl⟩

/-- An open track has released no subscriber. -/
theorem Settled.released_open (hs : t.Settled) (hfin : t.finished = false) :
    t.released = [] := by
  apply List.eq_nil_iff_forall_not_mem.mpr
  intro d hd
  have hgone := (hs.gone d hd).2
  rw [hfin] at hgone
  exact Bool.false_ne_true hgone

theorem Settled.stores (hs : t.Settled) (hfin : t.finished = false)
    (hclear : t.ClearBackfill new) (h : Stores t new t') : t'.Settled := by
  have hsub : ∀ d' ∈ t'.subscribers, ∃ d ∈ t.downstream, d' = d.record new := by
    intro d' hd'
    rw [Track.subscribers, h.released, hs.released_open hfin, List.append_nil] at hd'
    exact h.mem_downstream hd'
  have hin : ∀ d ∈ t.downstream, d ∈ t.subscribers := fun d hd => List.mem_append_left _ hd
  constructor
  case ids =>
    intro d' hd'
    obtain ⟨d, hd, rfl⟩ := h.mem_downstream hd'
    rw [h.joined]
    exact hs.ids d hd
  case replayIds =>
    rw [h.replays, h.joined]
    exact hs.replayIds
  case replaysNodup =>
    rw [h.replays]
    exact hs.replaysNodup
  case pending =>
    intro d' hd'
    obtain ⟨d, hd, rfl⟩ := h.mem_downstream hd'
    rw [h.replays]
    exact hs.pending d hd
  case untouched =>
    intro d' hd'
    obtain ⟨d, hd, rfl⟩ := h.mem_downstream hd'
    exact hs.untouched d hd
  case gone =>
    rw [h.released, h.finished]
    exact hs.gone
  case once =>
    intro d' hd'
    obtain ⟨d, hd, rfl⟩ := hsub d' hd'
    exact hs.once d (hin d hd)
  case taken =>
    intro d' hd'
    obtain ⟨d, hd, rfl⟩ := hsub d' hd'
    exact hs.taken d (hin d hd)
  case owed =>
    intro d' hd' hreplaying o ho hto
    obtain ⟨d, hd, rfl⟩ := hsub d' hd'
    rcases List.mem_append.mp ho with ho | ho
    · rcases hs.owed d (hin d hd) hreplaying o ho hto with hoff | hwait
      · exact Or.inl hoff
      -- A queued object that was fetched too is one the subscriber does not take.
      · apply Or.inr
        rw [h.mem_waiting]
        refine ⟨hwait, fun hnew => ?_⟩
        obtain ⟨n, hn, he⟩ := List.mem_map.mp hnew
        have halike := hclear.copy n hn o (Track.mem_waiting.mp hwait).1 he.symm
        have hnot := hclear.unseen d hd hreplaying n hn
        rw [← Downstream.takes_of_alike halike] at hnot
        exact absurd hto (by rw [Downstream.takes_record, hnot]; exact Bool.false_ne_true)
    · exact absurd hto (by
        rw [Downstream.takes_record, hclear.unseen d hd hreplaying o ho]
        exact Bool.false_ne_true)

theorem Flowing.stores (hf : t.Flowing arrived) (hclear : t.ClearBackfill new)
    (hnew : ∀ o ∈ new, o.location ∉ t.cache.map RelayObject.location) (h : Stores t new t') :
    t'.Flowing arrived := by
  constructor
  case cacheNodup =>
    rw [(h.cache.map _).nodup_iff, List.map_append, List.nodup_append]
    refine ⟨hclear.distinct, hf.cacheNodup, ?_⟩
    intro a ha b hb he
    obtain ⟨o, ho, rfl⟩ := List.mem_map.mp ha
    exact hnew o ho (he ▸ hb)
  case queueNodup =>
    rw [h.queued]
    exact hf.queueNodup
  case held =>
    intro loc hloc
    rw [(h.cache.map _).mem_iff, List.map_append, List.mem_append]
    rw [h.backfilled, List.mem_append] at hloc
    exact hloc.symm.imp_right (hf.held loc)
  case first =>
    intro first hfirst loc hloc
    have hheld : loc ∈ t'.cache.map RelayObject.location := by
      rw [(h.cache.map _).mem_iff, List.map_append, List.mem_append]
      rw [h.backfilled, List.mem_append] at hloc
      exact hloc.symm.imp_right (hf.held loc)
    obtain ⟨c, hc, rfl⟩ := List.mem_map.mp hheld
    exact head_group_le h.sorted hfirst hc
  case apart =>
    intro q hq
    rw [h.mem_waiting] at hq
    rw [(h.cache.map _).mem_iff, List.map_append, List.mem_append, not_or]
    exact ⟨hq.2, hf.apart q hq.1⟩
  case copies =>
    intro q hq c hc he
    rw [h.queued] at hq
    rcases h.mem_cache.mp hc with hc | hc
    · exact hclear.copy c hc q hq he
    · exact hf.copies q hq c hc he
  case offered =>
    intro d' hd' o ho
    obtain ⟨d, hd, rfl⟩ := h.mem_downstream hd'
    exact h.mem_cache.mpr (Or.inr (hf.offered d hd o ho))
  case somewhere =>
    intro d' hd' o ho
    obtain ⟨d, hd, rfl⟩ := h.mem_downstream hd'
    rcases List.mem_append.mp ho with ho | ho
    · rcases hf.somewhere d hd o ho with ⟨c, hc, halike⟩ | hwait
      · exact Or.inl ⟨c, h.mem_cache.mpr (Or.inr hc), halike⟩
      · by_cases hfetched : o.location ∈ new.map RelayObject.location
        · obtain ⟨n, hn, he⟩ := List.mem_map.mp hfetched
          have halike := hclear.copy n hn o (Track.mem_waiting.mp hwait).1 he.symm
          exact Or.inl ⟨n, h.mem_cache.mpr (Or.inl hn), halike⟩
        · exact Or.inr (h.mem_waiting.mpr ⟨hwait, hfetched⟩)
    · exact Or.inl ⟨o, h.mem_cache.mpr (Or.inl ho), rfl, rfl, rfl, rfl⟩
  case arrivals =>
    rw [h.queued]
    exact hf.arrivals
  case came =>
    intro c hc hback
    rw [h.backfilled, List.mem_append, not_or] at hback
    rcases h.mem_cache.mp hc with hc | hc
    · exact absurd (List.mem_map_of_mem hc) hback.2
    · exact hf.came c hc hback.1
  case ahead =>
    intro subgroup hasc c hc q hq hcsub hqsub
    rw [h.mem_waiting] at hq
    rcases h.mem_cache.mp hc with hc | hc
    · rcases lt_trichotomy c.location q.location with hlt | heq | hgt
      · exact hlt
      · exact absurd (heq ▸ List.mem_map_of_mem hc) hq.2
      · exact absurd (hclear.whole c hc q hq.1 (hqsub.trans hcsub.symm) hgt) hq.2
    · exact hf.ahead subgroup hasc c hc q hq.1 hcsub hqsub

theorem Ordered.stores (ho : t.Ordered arrived) (h : Stores t new t') : t'.Ordered arrived := by
  intro d' hd'
  rcases List.mem_append.mp hd' with hd' | hd'
  · obtain ⟨d, hd, rfl⟩ := h.mem_downstream hd'
    exact ho d (List.mem_append_left _ hd)
  · exact ho d' (List.mem_append_right _ (h.released ▸ hd'))

theorem newObjects_unheld (t : Track) (objs : List FetchTuple) :
    ∀ o ∈ t.newObjects objs, o.location ∉ t.cache.map RelayObject.location := by
  intro o ho
  obtain ⟨f, hf, rfl⟩ := List.mem_map.mp ho
  exact of_decide_eq_true (List.mem_filter.mp hf).2

theorem fetched_invariant (hi : t.Invariant arrived) {req : Backfill} {objs : List FetchTuple}
    (hclear : t.answers req → t.ClearBackfill (t.newObjects objs)) :
    (t.fetched req objs).Invariant arrived := by
  unfold fetched
  split
  · next hanswers =>
      have hclear := hclear hanswers
      obtain ⟨-, hclosed, hfin⟩ := hanswers
      have hf := hi.flowing hfin hclosed
      have hstores : Stores t (t.newObjects objs) _ := stores_backfill hf req
      constructor
      · exact hi.settled.stores hfin hclear hstores
      · exact fun _ _ => hf.stores hclear (t.newObjects_unheld objs) hstores
      · exact hi.ordered.stores hstores
  · exact hi

end Backfill

end Track

end AioMoqt.Relay
