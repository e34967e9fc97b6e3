import AioMoqt.Relay.Proofs.Fanout.Upstream

/-!
# The drain of a relayed track

One turn of `_forward_loop`: an object is dropped or cached and forwarded, a replay hands
out the cache, and the terminal lets the subscribers go.
-/

namespace AioMoqt.Relay

open AioMoqt.Messages

namespace Track

/-! ## The drain takes an object -/

section Forward

variable {arrived : List RelayObject} {t t' : Track} {o : RelayObject}

/-- The fan-out skips the subscribers that wait for their replay. -/
theorem mem_fanOut {live : Nat → Bool} {forward : Downstream → Option Downstream}
    {d' : Downstream} (h : d' ∈ (t.fanOut live forward).downstream) :
    ∃ d ∈ t.downstream, (d.replaying = true ∧ d' = d) ∨
      (d.replaying = false ∧ forward d = some d') := by
  obtain ⟨d, hd, hforward⟩ := List.mem_filterMap.mp h
  refine ⟨d, (List.mem_filter.mp hd).1, ?_⟩
  by_cases hreplaying : d.replaying = true
  · rw [if_pos hreplaying] at hforward
    exact Or.inl ⟨hreplaying, (Option.some.inj hforward).symm⟩
  · rw [if_neg hreplaying] at hforward
    exact Or.inr ⟨Bool.eq_false_iff.mpr hreplaying, hforward⟩

/-- The live copy of a fetched object is dropped. -/
structure Drops (t : Track) (o : RelayObject) (t' : Track) : Prop where
  queued : t.queued = o :: t'.queued
  replays : t'.replays = t.replays
  fetched : o.location ∈ t.backfilled
  backfilled : t'.backfilled = t.backfilled.filter (· ≠ o.location)
  cache : t'.cache = t.cache
  downstream : t'.downstream = t.downstream
  joined : t'.joined = t.joined
  released : t'.released = t.released
  finished : t'.finished = t.finished

theorem Drops.mem_waiting (h : Drops t o t')
    (hnodup : (t.queued.map RelayObject.location).Nodup) {q : RelayObject} :
    q ∈ t'.waiting ↔ q ∈ t.waiting := by
  rw [h.queued, List.map_cons, List.nodup_cons] at hnodup
  simp only [Track.mem_waiting, h.queued, h.backfilled, List.mem_filter, List.mem_cons,
    decide_eq_true_eq]
  constructor
  · rintro ⟨hq, hnot⟩
    have hne : q.location ≠ o.location := fun he => hnodup.1 (he ▸ List.mem_map_of_mem hq)
    exact ⟨Or.inr hq, fun hback => hnot ⟨hback, hne⟩⟩
  · rintro ⟨rfl | hq, hnot⟩
    · exact absurd h.fetched hnot
    · exact ⟨hq, fun hback => hnot hback.1⟩

theorem Settled.drops (hs : t.Settled) (hf : t.Flowing arrived) (h : Drops t o t') :
    t'.Settled := by
  have hsub : t'.subscribers = t.subscribers := by
    rw [Track.subscribers, h.downstream, h.released, Track.subscribers]
  constructor
  case ids =>
    rw [h.downstream, h.joined]
    exact hs.ids
  case replayIds =>
    rw [h.replays, h.joined]
    exact hs.replayIds
  case replaysNodup =>
    rw [h.replays]
    exact hs.replaysNodup
  case pending =>
    rw [h.downstream, h.replays]
    exact hs.pending
  case untouched =>
    rw [h.downstream]
    exact hs.untouched
  case gone =>
    rw [h.released, h.finished]
    exact hs.gone
  case once =>
    rw [hsub]
    exact hs.once
  case taken =>
    rw [hsub]
    exact hs.taken
  case owed =>
    intro d hd hreplaying o' ho' hto'
    rw [h.mem_waiting hf.queueNodup]
    exact hs.owed d (hsub ▸ hd) hreplaying o' ho' hto'

theorem Flowing.drops (hf : t.Flowing arrived) (h : Drops t o t') : t'.Flowing arrived := by
  have hwaiting : ∀ q, q ∈ t'.waiting → q ∈ t.waiting := fun q =>
    (h.mem_waiting hf.queueNodup).mp
  have hback : ∀ loc ∈ t'.backfilled, loc ∈ t.backfilled := by
    intro loc hloc
    rw [h.backfilled] at hloc
    exact (List.mem_filter.mp hloc).1
  have hqueued : ∀ q ∈ t'.queued, q ∈ t.queued := by
    intro q hq
    rw [h.queued]
    exact List.mem_cons_of_mem _ hq
  constructor
  case cacheNodup =>
    rw [h.cache]
    exact hf.cacheNodup
  case queueNodup =>
    have hnodup := hf.queueNodup
    rw [h.queued, List.map_cons, List.nodup_cons] at hnodup
    exact hnodup.2
  case held =>
    rw [h.cache]
    exact fun loc hloc => hf.held loc (hback loc hloc)
  case first =>
    rw [h.cache]
    exact fun first hfirst loc hloc => hf.first first hfirst loc (hback loc hloc)
  case apart =>
    rw [h.cache]
    exact fun q hq => hf.apart q (hwaiting q hq)
  case copies =>
    rw [h.cache]
    exact fun q hq => hf.copies q (hqueued q hq)
  case offered =>
    rw [h.downstream, h.cache]
    exact hf.offered
  case somewhere =>
    rw [h.downstream, h.cache]
    intro d hd o' ho'
    exact (hf.somewhere d hd o' ho').imp_right (h.mem_waiting hf.queueNodup).mpr
  case arrivals =>
    apply List.IsSuffix.trans _ hf.arrivals
    rw [h.queued]
    exact List.suffix_cons o _
  case came =>
    intro c hc hnot
    rw [h.cache] at hc
    by_cases hold : c.location ∈ t.backfilled
    -- The dropped copy is what arrived of this object.
    · have he : o.location = c.location := by
        by_contra hne
        apply hnot
        rw [h.backfilled]
        exact List.mem_filter.mpr ⟨hold, decide_eq_true (Ne.symm hne)⟩
      have ho : o ∈ t.queued := by
        rw [h.queued]
        exact List.mem_cons_self
      exact ⟨o, hf.arrivals.subset ho, he, (hf.copies o ho c hc he).subgroup_eq⟩
    · exact hf.came c hc hold
  case ahead =>
    rw [h.cache]
    exact fun subgroup hasc c hc q hq => hf.ahead subgroup hasc c hc q (hwaiting q hq)

/-- The cache starts where it did once it holds another object. -/
theorem Flowing.first_append (hf : t.Flowing arrived) (o : RelayObject) :
    ∀ first ∈ (t.cache ++ [o]).head?, ∀ loc ∈ t.backfilled, first.groupId ≤ loc.group := by
  intro first hfirst loc hloc
  cases hcache : t.cache with
  | nil =>
      have hheld := hf.held loc hloc
      simp [hcache] at hheld
  | cons a rest =>
      rw [hcache] at hfirst
      exact hf.first first (by rw [hcache]; exact hfirst) loc hloc

/-- An object is cached and goes to the subscribers past their replay that take it. -/
structure Forwards (t : Track) (o : RelayObject) (t' : Track) : Prop where
  queued : t.queued = o :: t'.queued
  replays : t'.replays = t.replays
  live : o.location ∉ t.backfilled
  backfilled : t'.backfilled = t.backfilled
  cache : t'.cache = t.cache ++ [o]
  downstream : ∀ d' ∈ t'.downstream, ∃ d ∈ t.downstream, d.Same d' ∧
    d'.objects = d.objects ++ if d.replaying = false ∧ d.takes o then [o] else []
  joined : t'.joined = t.joined
  released : t'.released = t.released
  finished : t'.finished = t.finished

theorem Forwards.mem_waiting (h : Forwards t o t') {q : RelayObject} :
    q ∈ t.waiting ↔ q = o ∨ q ∈ t'.waiting := by
  simp only [Track.mem_waiting, h.queued, h.backfilled, List.mem_cons]
  constructor
  · rintro ⟨rfl | hq, hnot⟩
    · exact Or.inl rfl
    · exact Or.inr ⟨hq, hnot⟩
  · rintro (rfl | ⟨hq, hnot⟩)
    · exact ⟨Or.inl rfl, h.live⟩
    · exact ⟨Or.inr hq, hnot⟩

/-- The object that is forwarded was offered to nobody before. -/
theorem Forwards.unoffered (h : Forwards t o t') (hf : t.Flowing arrived) {d : Downstream}
    (hd : d ∈ t.downstream) : o.location ∉ d.locations := by
  intro hoff
  obtain ⟨c, hc, he⟩ := List.mem_map.mp hoff
  apply hf.apart o (h.mem_waiting.mpr (Or.inl rfl))
  exact he ▸ List.mem_map_of_mem (hf.offered d hd c hc)

theorem Settled.forwards (hs : t.Settled) (hf : t.Flowing arrived) (hfin : t.finished = false)
    (h : Forwards t o t') : t'.Settled := by
  have hnone : t'.released = [] := h.released ▸ hs.released_open hfin
  have hsub : t'.subscribers = t'.downstream := by
    rw [Track.subscribers, hnone, List.append_nil]
  have hin : ∀ d ∈ t.downstream, d ∈ t.subscribers := fun d hd => List.mem_append_left _ hd
  constructor
  case ids =>
    intro d' hd'
    obtain ⟨d, hd, hsame, -⟩ := h.downstream d' hd'
    rw [h.joined, hsame.id]
    exact hs.ids d hd
  case replayIds =>
    rw [h.replays, h.joined]
    exact hs.replayIds
  case replaysNodup =>
    rw [h.replays]
    exact hs.replaysNodup
  case pending =>
    intro d' hd'
    obtain ⟨d, hd, hsame, -⟩ := h.downstream d' hd'
    rw [h.replays, hsame.id, hsame.replaying]
    exact hs.pending d hd
  case untouched =>
    intro d' hd' hreplaying
    obtain ⟨d, hd, hsame, hobjects⟩ := h.downstream d' hd'
    rw [hsame.replaying] at hreplaying
    rw [hobjects, if_neg (by simp [hreplaying]), List.append_nil]
    exact hs.untouched d hd hreplaying
  case gone => simp [hnone]
  case once =>
    rw [hsub]
    intro d' hd'
    obtain ⟨d, hd, -, hobjects⟩ := h.downstream d' hd'
    rw [Downstream.locations, hobjects, List.map_append]
    have hold := hs.once d (hin d hd)
    split
    · rw [List.nodup_append]
      refine ⟨hold, List.nodup_singleton _, ?_⟩
      intro a ha b hb he
      rw [List.map_singleton, List.mem_singleton] at hb
      exact h.unoffered hf hd (hb ▸ he ▸ ha)
    · rw [List.map_nil, List.append_nil]
      exact hold
  case taken =>
    rw [hsub]
    intro d' hd' o' ho'
    obtain ⟨d, hd, hsame, hobjects⟩ := h.downstream d' hd'
    rw [hobjects] at ho'
    rw [hsame.takes]
    rcases List.mem_append.mp ho' with ho' | ho'
    · exact hs.taken d (hin d hd) o' ho'
    · split at ho'
      · next htakes =>
          rw [List.mem_singleton.mp ho']
          exact htakes.2
      · simp at ho'
  case owed =>
    rw [hsub]
    intro d' hd' hreplaying o' ho' hto'
    obtain ⟨d, hd, hsame, hobjects⟩ := h.downstream d' hd'
    rw [hsame.replaying] at hreplaying
    rw [hsame.owed] at ho'
    rw [hsame.takes] at hto'
    rw [Downstream.locations, hobjects, List.map_append, List.mem_append]
    rcases hs.owed d (hin d hd) hreplaying o' ho' hto' with hoff | hwait
    · exact Or.inl (Or.inl hoff)
    · rcases h.mem_waiting.mp hwait with rfl | hwait
      · rw [if_pos ⟨hreplaying, hto'⟩]
        exact Or.inl (Or.inr (List.mem_singleton_self _))
      · exact Or.inr hwait

theorem Flowing.forwards (hf : t.Flowing arrived) (h : Forwards t o t') :
    t'.Flowing arrived := by
  have hwaiting : ∀ q ∈ t'.waiting, q ∈ t.waiting := fun q hq => h.mem_waiting.mpr (Or.inr hq)
  have ho : o ∈ t.waiting := h.mem_waiting.mpr (Or.inl rfl)
  have hqueued : ∀ q ∈ t'.queued, q ∈ t.queued := by
    intro q hq
    rw [h.queued]
    exact List.mem_cons_of_mem _ hq
  have hnodup := hf.queueNodup
  rw [h.queued, List.map_cons, List.nodup_cons] at hnodup
  have hother : ∀ q ∈ t'.queued, q.location ≠ o.location := fun q hq he =>
    hnodup.1 (he ▸ List.mem_map_of_mem hq)
  constructor
  case cacheNodup =>
    rw [h.cache, List.map_append, List.nodup_append]
    refine ⟨hf.cacheNodup, List.nodup_singleton _, ?_⟩
    intro a ha b hb he
    rw [List.map_singleton, List.mem_singleton] at hb
    exact hf.apart o ho (hb ▸ he ▸ ha)
  case queueNodup => exact hnodup.2
  case held =>
    intro loc hloc
    rw [h.backfilled] at hloc
    rw [h.cache, List.map_append]
    exact List.mem_append_left _ (hf.held loc hloc)
  case first =>
    rw [h.backfilled, h.cache]
    exact hf.first_append o
  case apart =>
    intro q hq
    rw [h.cache, List.map_append, List.mem_append, not_or]
    refine ⟨hf.apart q (hwaiting q hq), ?_⟩
    rw [List.map_singleton, List.mem_singleton]
    exact hother q (Track.mem_waiting.mp hq).1
  case copies =>
    intro q hq c hc he
    rw [h.cache] at hc
    rcases List.mem_append.mp hc with hc | hc
    · exact hf.copies q (hqueued q hq) c hc he
    · rw [List.mem_singleton.mp hc] at he
      exact absurd he (hother q hq)
  case offered =>
    intro d' hd' o' ho'
    obtain ⟨d, hd, -, hobjects⟩ := h.downstream d' hd'
    rw [hobjects] at ho'
    rw [h.cache]
    rcases List.mem_append.mp ho' with ho' | ho'
    · exact List.mem_append_left _ (hf.offered d hd o' ho')
    · split at ho'
      · exact List.mem_append_right _ ho'
      · simp at ho'
  case somewhere =>
    intro d' hd' o' ho'
    obtain ⟨d, hd, hsame, -⟩ := h.downstream d' hd'
    rw [hsame.owed] at ho'
    rw [h.cache]
    rcases hf.somewhere d hd o' ho' with ⟨c, hc, halike⟩ | hwait
    · exact Or.inl ⟨c, List.mem_append_left _ hc, halike⟩
    · rcases h.mem_waiting.mp hwait with rfl | hwait
      · exact Or.inl ⟨o', List.mem_append_right _ (List.mem_singleton_self _), rfl, rfl, rfl, rfl⟩
      · exact Or.inr hwait
  case arrivals =>
    apply List.IsSuffix.trans _ hf.arrivals
    rw [h.queued]
    exact List.suffix_cons o _
  case came =>
    intro c hc hnot
    rw [h.backfilled] at hnot
    rw [h.cache] at hc
    rcases List.mem_append.mp hc with hc | hc
    · exact hf.came c hc hnot
    · rw [List.mem_singleton.mp hc]
      exact ⟨o, hf.arrivals.subset (Track.mem_waiting.mp ho).1, rfl, rfl⟩
  case ahead =>
    intro subgroup hasc c hc q hq hcsub hqsub
    rw [h.cache] at hc
    rcases List.mem_append.mp hc with hc | hc
    · exact hf.ahead subgroup hasc c hc q (hwaiting q hq) hcsub hqsub
    -- The queue holds the rest of what arrived, in order.
    · rw [List.mem_singleton.mp hc] at hcsub ⊢
      obtain ⟨before, hbefore⟩ := hf.arrivals
      rw [← hbefore, h.queued, Ascends, List.filter_append] at hasc
      have hrest := (List.pairwise_append.mp hasc).2.1
      rw [List.filter_cons_of_pos (by simpa using hcsub)] at hrest
      apply (List.pairwise_cons.mp hrest).1
      exact List.mem_filter.mpr ⟨(Track.mem_waiting.mp hq).1, by simpa using hqsub⟩

theorem Ordered.forwards (ho : t.Ordered arrived) (hf : t.Flowing arrived)
    (hnone : t.released = []) (h : Forwards t o t') : t'.Ordered arrived := by
  intro d' hd' subgroup hasc
  rw [Track.subscribers, h.released, hnone, List.append_nil] at hd'
  obtain ⟨d, hd, -, hobjects⟩ := h.downstream d' hd'
  have hold := ho d (List.mem_append_left _ hd) subgroup hasc
  rw [hobjects]
  split
  · rw [Ascends, List.filter_append, List.pairwise_append]
    refine ⟨hold, List.Pairwise.filter _ (List.pairwise_singleton _ _), ?_⟩
    intro a ha b hb
    simp only [List.mem_filter, List.mem_singleton, decide_eq_true_eq] at ha hb
    obtain ⟨rfl, hbsub⟩ := hb
    exact hf.ahead subgroup hasc a (hf.offered d hd a ha.1) b
      (h.mem_waiting.mpr (Or.inl rfl)) ha.2 hbsub
  · rw [List.append_nil]
    exact hold

end Forward

/-! ## A replay -/

section Replay

variable {arrived : List RelayObject} {t t' : Track} {d : Downstream}

theorem mem_replayObjects {o : RelayObject} :
    o ∈ t.replayObjects d ↔ o ∈ t.cache ∧ d.takes o = true := by
  rw [replayObjects, (List.mergeSort_perm _ _).mem_iff, List.mem_filter]

theorem objects_replayed (h : d.objects = []) :
    (t.replayed d).objects = t.replayObjects d := by
  have hends : ∀ ends : List (Nat × Int),
      (ends.map (Offer.streamEnd false · .fin)).filterMap Offer.object? = [] := by
    intro ends
    simp [List.filterMap_map, Function.comp_def, Offer.object?]
  have hobjs : ∀ objs : List RelayObject,
      (objs.map (Offer.object false)).filterMap Offer.object? = objs := by
    intro objs
    simp [List.filterMap_map, Function.comp_def, Offer.object?]
  have hoffer := Downstream.objects_offer (d := d) (t.replayItems d)
  rw [h, List.nil_append, replayItems, List.filterMap_append, hends, hobjs, List.append_nil]
    at hoffer
  exact hoffer

theorem replayObjects_nodup (hf : t.Flowing arrived) :
    ((t.replayObjects d).map RelayObject.location).Nodup := by
  rw [replayObjects, ((List.mergeSort_perm _ _).map _).nodup_iff]
  exact hf.cacheNodup.sublist (List.filter_sublist.map _)

/-- A replay offers each subgroup in ascending order. -/
theorem replayObjects_ascends (hf : t.Flowing arrived) (subgroup : Nat × Int) :
    Ascends (t.replayObjects d) subgroup := by
  have hsorted : (t.replayObjects d).Pairwise fun a b => a.replayKey ≤ b.replayKey :=
    Lib.pairwise_mergeSort_rel
      (fun a b c (hab : a.replayKey ≤ b.replayKey) (hbc : b.replayKey ≤ c.replayKey) =>
        hab.trans hbc)
      (fun a b => le_total a.replayKey b.replayKey) _
  have hne := List.pairwise_map.mp (t.replayObjects_nodup (d := d) hf)
  apply List.Pairwise.imp_of_mem _ ((hsorted.and hne).filter _)
  intro a b ha hb ⟨hle, hne⟩
  have hsub : a.subgroup = b.subgroup :=
    (of_decide_eq_true (List.mem_filter.mp ha).2).trans
      (of_decide_eq_true (List.mem_filter.mp hb).2).symm
  simp only [RelayObject.subgroup, Prod.mk.injEq] at hsub
  simp only [RelayObject.replayKey, Prod.Lex.toLex_le_toLex, hsub.1, hsub.2, lt_irrefl, true_and,
    false_or] at hle
  apply lt_of_le_of_ne _ hne
  exact Location.le_iff.mpr (Or.inr ⟨hsub.1, hle⟩)

/-- A subscriber that waited for its replay gets with it what it is owed of the cache. -/
theorem replayed_owed (hf : t.Flowing arrived) (hd : d ∈ t.downstream) (h : d.objects = [])
    {o : RelayObject} (ho : o ∈ (t.replayed d).owed) (htakes : d.takes o = true) :
    o.location ∈ (t.replayed d).locations ∨ o ∈ t.waiting := by
  have hcached : ∀ c ∈ t.cache, o.Alike c → o.location ∈ (t.replayed d).locations := by
    intro c hc halike
    rw [Downstream.locations, objects_replayed h, halike.1]
    apply List.mem_map_of_mem
    exact mem_replayObjects.mpr ⟨hc, Downstream.takes_of_alike halike ▸ htakes⟩
  rcases List.mem_append.mp ho with ho | ho
  · rcases hf.somewhere d hd o ho with ⟨c, hc, halike⟩ | hwait
    · exact Or.inl (hcached c hc halike)
    · exact Or.inr hwait
  · exact Or.inl (hcached o ho ⟨rfl, rfl, rfl, rfl⟩)

/-- The REPLAY item of a subscriber comes up. -/
structure Replays (t : Track) (id : Nat) (t' : Track) : Prop where
  queued : t'.queued = t.queued
  replays : t.replays = id :: t'.replays
  cache : t'.cache = t.cache
  backfilled : t'.backfilled = t.backfilled
  downstream : t'.downstream = t.downstream.map fun d => if d.id = id then t.replayed d else d
  joined : t'.joined = t.joined
  released : t'.released = t.released
  finished : t'.finished = t.finished

variable {id : Nat}

theorem Replays.waiting (h : Replays t id t') : t'.waiting = t.waiting := by
  rw [Track.waiting, h.queued, h.backfilled, Track.waiting]

/-- After it, a subscriber is another one as before, or one that got its replay. -/
theorem Replays.mem_downstream (h : Replays t id t') (hs : t.Settled) {d' : Downstream}
    (hd' : d' ∈ t'.downstream) : ∃ d ∈ t.downstream, d'.id = d.id ∧
      ((d.id ≠ id ∧ d' = d) ∨ (d.id = id ∧ d.objects = [] ∧ d' = t.replayed d)) := by
  rw [h.downstream, List.mem_map] at hd'
  obtain ⟨d, hd, rfl⟩ := hd'
  by_cases hid : d.id = id
  · rw [if_pos hid]
    have hreplaying : d.replaying = true := by
      rw [hs.pending d hd, h.replays, hid]
      exact List.mem_cons_self
    exact ⟨d, hd, rfl, Or.inr ⟨hid, hs.untouched d hd hreplaying, rfl⟩⟩
  · rw [if_neg hid]
    exact ⟨d, hd, rfl, Or.inl ⟨hid, rfl⟩⟩

theorem Settled.replays (hs : t.Settled) (hf : t.Flowing arrived) (hfin : t.finished = false)
    (h : Replays t id t') : t'.Settled := by
  have hnone : t'.released = [] := h.released ▸ hs.released_open hfin
  have hsub : t'.subscribers = t'.downstream := by
    rw [Track.subscribers, hnone, List.append_nil]
  have hin : ∀ d ∈ t.downstream, d ∈ t.subscribers := fun d hd => List.mem_append_left _ hd
  have hnodup := hs.replaysNodup
  rw [h.replays, List.nodup_cons] at hnodup
  constructor
  case ids =>
    intro d' hd'
    obtain ⟨d, hd, hid, -⟩ := h.mem_downstream hs hd'
    rw [h.joined, hid]
    exact hs.ids d hd
  case replayIds =>
    intro id' hid'
    rw [h.joined]
    apply hs.replayIds
    rw [h.replays]
    exact List.mem_cons_of_mem _ hid'
  case replaysNodup => exact hnodup.2
  case pending =>
    intro d' hd'
    obtain ⟨d, hd, -, ⟨hne, rfl⟩ | ⟨rfl, -, rfl⟩⟩ := h.mem_downstream hs hd'
    · rw [hs.pending d' hd, h.replays, List.mem_cons]
      simp [hne]
    · exact ⟨fun hreplaying => absurd hreplaying Bool.false_ne_true,
        fun hmem => absurd hmem hnodup.1⟩
  case untouched =>
    intro d' hd' hreplaying
    obtain ⟨d, hd, -, ⟨-, rfl⟩ | ⟨-, -, rfl⟩⟩ := h.mem_downstream hs hd'
    · exact hs.untouched d' hd hreplaying
    · exact absurd hreplaying Bool.false_ne_true
  case gone => simp [hnone]
  case once =>
    rw [hsub]
    intro d' hd'
    obtain ⟨d, hd, -, ⟨-, rfl⟩ | ⟨-, hempty, rfl⟩⟩ := h.mem_downstream hs hd'
    · exact hs.once d' (hin d' hd)
    · rw [Downstream.locations, objects_replayed hempty]
      exact replayObjects_nodup hf
  case taken =>
    rw [hsub]
    intro d' hd' o ho
    obtain ⟨d, hd, -, ⟨-, rfl⟩ | ⟨-, hempty, rfl⟩⟩ := h.mem_downstream hs hd'
    · exact hs.taken d' (hin d' hd) o ho
    · rw [objects_replayed hempty] at ho
      exact (mem_replayObjects.mp ho).2
  case owed =>
    rw [hsub, h.waiting]
    intro d' hd' hreplaying o ho htakes
    obtain ⟨d, hd, -, ⟨-, rfl⟩ | ⟨-, hempty, rfl⟩⟩ := h.mem_downstream hs hd'
    · exact hs.owed d' (hin d' hd) hreplaying o ho htakes
    · exact replayed_owed hf hd hempty ho htakes

theorem Flowing.replays (hf : t.Flowing arrived) (hs : t.Settled) (h : Replays t id t') :
    t'.Flowing arrived where
  cacheNodup := by rw [h.cache]; exact hf.cacheNodup
  queueNodup := by rw [h.queued]; exact hf.queueNodup
  held := by rw [h.backfilled, h.cache]; exact hf.held
  first := by rw [h.backfilled, h.cache]; exact hf.first
  apart := by rw [h.waiting, h.cache]; exact hf.apart
  copies := by rw [h.queued, h.cache]; exact hf.copies
  offered := by
    intro d' hd' o ho
    rw [h.cache]
    obtain ⟨d, hd, -, ⟨-, rfl⟩ | ⟨-, hempty, rfl⟩⟩ := h.mem_downstream hs hd'
    · exact hf.offered d' hd o ho
    · rw [objects_replayed hempty] at ho
      exact (mem_replayObjects.mp ho).1
  somewhere := by
    intro d' hd' o ho
    rw [h.cache, h.waiting]
    obtain ⟨d, hd, -, ⟨-, rfl⟩ | ⟨-, -, rfl⟩⟩ := h.mem_downstream hs hd'
    · exact hf.somewhere d' hd o ho
    · rcases List.mem_append.mp ho with ho | ho
      · exact hf.somewhere d hd o ho
      · exact Or.inl ⟨o, ho, rfl, rfl, rfl, rfl⟩
  arrivals := by rw [h.queued]; exact hf.arrivals
  came := by rw [h.backfilled, h.cache]; exact hf.came
  ahead := by rw [h.waiting, h.cache]; exact hf.ahead

theorem Ordered.replays (ho : t.Ordered arrived) (hs : t.Settled) (hf : t.Flowing arrived)
    (hnone : t.released = []) (h : Replays t id t') : t'.Ordered arrived := by
  intro d' hd' subgroup hasc
  rw [Track.subscribers, h.released, hnone, List.append_nil] at hd'
  obtain ⟨d, hd, -, ⟨-, rfl⟩ | ⟨-, hempty, rfl⟩⟩ := h.mem_downstream hs hd'
  · exact ho d' (List.mem_append_left _ hd) subgroup hasc
  · rw [objects_replayed hempty]
    exact replayObjects_ascends hf subgroup

end Replay

/-! ## One turn of the drain -/

section Drain

variable {arrived : List RelayObject} {t : Track} {rest : List QueueItem}

/-- The track once an item is off its queue. -/
def popped (t : Track) (rest : List QueueItem) : Track := { t with queue := rest }

theorem popped_quiet {item : QueueItem} (h : t.queue = item :: rest)
    (hobject : item.object? = none) (hreplay : item.replay? = none) :
    Quiet t (t.popped rest) :=
  ⟨by simp [Track.queued, h, hobject, popped], by simp [Track.replays, h, hreplay, popped],
    rfl, rfl, rfl, downstream_refl fun _ h => h, id⟩

theorem fanOut_end_quiet (t : Track) (live : Nat → Bool) (subgroup : Nat × Int)
    (how : StreamEnd) : Quiet t (t.fanOut live (·.forwardEnd subgroup how)) := by
  refine ⟨rfl, rfl, rfl, rfl, rfl, ?_, id⟩
  intro d' hd'
  obtain ⟨d, hd, ⟨-, rfl⟩ | ⟨-, hforward⟩⟩ := mem_fanOut hd'
  · exact ⟨d', hd, ⟨rfl, rfl, rfl, rfl⟩, rfl⟩
  · obtain rfl := Option.some.inj hforward
    refine ⟨d, hd, Downstream.offer_same _, ?_⟩
    rw [Downstream.objects_offer]
    exact List.append_nil _

theorem remember_fields (t : Track) (o : RelayObject) :
    (t.remember o).queue = t.queue ∧ (t.remember o).cache = t.cache ++ [o] ∧
      (t.remember o).downstream = t.downstream ∧ (t.remember o).joined = t.joined ∧
      (t.remember o).released = t.released ∧ (t.remember o).finished = t.finished ∧
      (t.remember o).closed = t.closed ∧ (t.remember o).draining = t.draining := by
  exact prune_fields (noteLargest { t with cache := t.cache ++ [o] } o.location)

/-- Caching and forwarding an object that is no live copy of a fetched one. -/
theorem forwards_object {o : RelayObject} (hf : t.Flowing arrived)
    (h : t.queue = .object o :: rest) (hlive : o.location ∉ t.backfilled) (live : Nat → Bool) :
    Forwards t o (((t.popped rest).remember o).fanOut live (·.forwardObject o)) := by
  obtain ⟨hqueue, hcache, hdown, hjoined, hreleased, hfin, -⟩ := (t.popped rest).remember_fields o
  constructor
  case queued =>
    have hrest : (((t.popped rest).remember o).fanOut live (·.forwardObject o)).queue = rest :=
      hqueue
    simp [Track.queued, h, hrest, QueueItem.object?]
  case replays =>
    have hrest : (((t.popped rest).remember o).fanOut live (·.forwardObject o)).queue = rest :=
      hqueue
    rw [Track.replays, Track.replays, hrest, h]
    rfl
  case live => exact hlive
  case backfilled => exact prune_backfilled (hf.first_append o)
  case cache => exact hcache
  case downstream =>
    intro d' hd'
    obtain ⟨d, hd, ⟨hreplaying, rfl⟩ | ⟨hreplaying, hforward⟩⟩ := mem_fanOut hd'
    · rw [hdown] at hd
      refine ⟨d', hd, ⟨rfl, rfl, rfl, rfl⟩, ?_⟩
      rw [if_neg (by simp [hreplaying]), List.append_nil]
    · rw [hdown] at hd
      obtain ⟨hsame, hobjects⟩ := Downstream.forwardObject_eq_some hforward
      refine ⟨d, hd, hsame, ?_⟩
      rw [hobjects]
      simp [hreplaying]
  case joined => exact hjoined
  case released => exact hreleased
  case finished => exact hfin

theorem drops_object {o : RelayObject} (h : t.queue = .object o :: rest)
    (hback : o.location ∈ t.backfilled) :
    Drops t o { t.popped rest with backfilled := t.backfilled.filter (· ≠ o.location) } where
  queued := by simp [Track.queued, popped, h, QueueItem.object?]
  replays := by
    rw [Track.replays, Track.replays, h]
    rfl
  fetched := hback
  backfilled := rfl
  cache := rfl
  downstream := rfl
  joined := rfl
  released := rfl
  finished := rfl

theorem replays_item {id : Nat} (h : t.queue = .replay id :: rest) :
    Replays t id ((t.popped rest).replay id) where
  queued := by
    rw [Track.queued, Track.queued, h]
    rfl
  replays := by simp [Track.replays, popped, Track.replay, h, QueueItem.replay?]
  cache := rfl
  backfilled := rfl
  downstream := rfl
  joined := rfl
  released := rfl
  finished := rfl

/-- The terminal replays what is pending, and lets the subscribers go. -/
theorem mem_released_terminate (hs : t.Settled) (hfin : t.finished = false) {d' : Downstream}
    (hd' : d' ∈ t.terminate.released) : ∃ d ∈ t.downstream,
      (d.replaying = false ∧ d' = d) ∨ (d.objects = [] ∧ d' = t.replayed d) := by
  have hreleased : t.terminate.released = t.released ++
      t.downstream.map fun d => if d.replaying then t.replayed d else d := rfl
  rw [hreleased, hs.released_open hfin, List.nil_append, List.mem_map] at hd'
  obtain ⟨d, hd, rfl⟩ := hd'
  by_cases hreplaying : d.replaying = true
  · rw [if_pos hreplaying]
    exact ⟨d, hd, Or.inr ⟨hs.untouched d hd hreplaying, rfl⟩⟩
  · rw [if_neg hreplaying]
    exact ⟨d, hd, Or.inl ⟨Bool.eq_false_iff.mpr hreplaying, rfl⟩⟩

theorem terminate_invariant (hi : t.Invariant arrived) (hfin : t.finished = false)
    (hclosed : t.closed = false) : t.terminate.Invariant arrived := by
  have hs := hi.settled
  have hf := hi.flowing hfin hclosed
  have hreleased := fun d' (hd' : d' ∈ t.terminate.released) =>
    mem_released_terminate hs hfin hd'
  have hin : ∀ d ∈ t.downstream, d ∈ t.subscribers := fun d hd => List.mem_append_left _ hd
  constructor
  case settled =>
    constructor
    case ids => exact fun d hd => absurd hd List.not_mem_nil
    case replayIds => exact hs.replayIds
    case replaysNodup => exact hs.replaysNodup
    case pending => exact fun d hd => absurd hd List.not_mem_nil
    case untouched => exact fun d hd => absurd hd List.not_mem_nil
    case gone =>
      intro d' hd'
      obtain ⟨d, -, ⟨hreplaying, rfl⟩ | ⟨-, rfl⟩⟩ := hreleased d' hd'
      · exact ⟨hreplaying, rfl⟩
      · exact ⟨rfl, rfl⟩
    case once =>
      intro d' hd'
      obtain ⟨d, hd, ⟨-, rfl⟩ | ⟨hempty, rfl⟩⟩ := hreleased d' hd'
      · exact hs.once d' (hin d' hd)
      · rw [Downstream.locations, objects_replayed hempty]
        exact replayObjects_nodup hf
    case taken =>
      intro d' hd' o ho
      obtain ⟨d, hd, ⟨-, rfl⟩ | ⟨hempty, rfl⟩⟩ := hreleased d' hd'
      · exact hs.taken d' (hin d' hd) o ho
      · rw [objects_replayed hempty] at ho
        exact (mem_replayObjects.mp ho).2
    case owed =>
      intro d' hd' hreplaying o ho htakes
      obtain ⟨d, hd, ⟨-, rfl⟩ | ⟨hempty, rfl⟩⟩ := hreleased d' hd'
      · exact hs.owed d' (hin d' hd) hreplaying o ho htakes
      · exact replayed_owed hf hd hempty ho htakes
  case flowing => exact fun hdone => absurd hdone (by simp [terminate, release, finish])
  case ordered =>
    intro d' hd' subgroup hasc
    obtain ⟨d, hd, ⟨-, rfl⟩ | ⟨hempty, rfl⟩⟩ := hreleased d' hd'
    · exact hi.ordered d' (hin d' hd) subgroup hasc
    · rw [objects_replayed hempty]
      exact replayObjects_ascends hf subgroup

theorem drain_invariant (hi : t.Invariant arrived) (hd : t.Drained) (live : Nat → Bool) :
    (t.drain live).Invariant arrived := by
  unfold drain
  split
  · next hdraining =>
      obtain ⟨hfin, hclosed⟩ := hd.opened hdraining
      have hs := hi.settled
      have hf := hi.flowing hfin hclosed
      have hnot : ¬ (t.finished = true) := by simp [hfin]
      split
      · exact hi
      · next item rest hqueue =>
          cases item with
          | object o =>
              rw [forward, if_neg hnot]
              by_cases hback : o.location ∈ t.backfilled
              · have hdrops := drops_object hqueue hback
                rw [if_pos hback]
                exact ⟨hs.drops hf hdrops, fun _ _ => hf.drops hdrops, hi.ordered⟩
              · have hforwards := forwards_object hf hqueue hback live
                rw [if_neg hback]
                exact ⟨hs.forwards hf hfin hforwards, fun _ _ => hf.forwards hforwards,
                  hi.ordered.forwards hf (hs.released_open hfin) hforwards⟩
          | streamEnd subgroup how =>
              rw [forward, if_neg hnot]
              have hpopped : (t.popped rest).Invariant arrived :=
                hi.quiet (popped_quiet hqueue rfl rfl) fun hfin hclosed => ⟨hfin, hclosed, rfl⟩
              exact hpopped.quiet (fanOut_end_quiet _ live subgroup how)
                fun hfin hclosed => ⟨hfin, hclosed, rfl⟩
          | replay id =>
              rw [forward, if_neg hnot]
              have hreplays := replays_item hqueue
              exact ⟨hs.replays hf hfin hreplays, fun _ _ => hf.replays hs hreplays,
                hi.ordered.replays hs hf (hs.released_open hfin) hreplays⟩
          | done =>
              have hpopped : (t.popped rest).Invariant arrived :=
                hi.quiet (popped_quiet hqueue rfl rfl) fun hfin hclosed => ⟨hfin, hclosed, rfl⟩
              exact terminate_invariant hpopped hfin hclosed
  · exact hi

/-- The drain goes on until the terminal. -/
theorem drain_drained (hd : t.Drained) (live : Nat → Bool) : (t.drain live).Drained := by
  unfold drain
  split
  · next hdraining =>
      have hopen := hd.opened hdraining
      have hnot : ¬ (t.finished = true) := by simp [hopen.1]
      split
      · exact hd
      · next item rest hqueue =>
          have hon : ∀ t' : Track, t'.draining = t.draining → t'.finished = t.finished →
              t'.closed = t.closed → t'.Drained := by
            intro t' hdraining' hfin' hclosed'
            exact ⟨fun _ => by rw [hfin', hclosed']; exact hopen,
              fun _ => Or.inl (hdraining'.trans hdraining)⟩
          cases item with
          | object o =>
              rw [forward, if_neg hnot]
              split
              · exact hon _ rfl rfl rfl
              · obtain ⟨-, -, -, -, -, hfin, hclosed, hdrains⟩ :=
                  (t.popped rest).remember_fields o
                exact hon _ hdrains hfin hclosed
          | streamEnd subgroup how =>
              rw [forward, if_neg hnot]
              exact hon _ rfl rfl rfl
          | replay id =>
              rw [forward, if_neg hnot]
              exact hon _ rfl rfl rfl
          | done => exact ⟨fun h => absurd h Bool.false_ne_true, fun _ => by
              simp [forward, terminate, release, finish]⟩
  · exact hd

end Drain

end Track

end AioMoqt.Relay
