import AioMoqt.Agent.Proofs.WriterAccounts

/-!
# Runs of a writer

Numbering and accounts over a whole run, and the two policies under which nothing goes wrong.
-/

namespace AioMoqt.Agent

open AioMoqt.Lib.BigEndian

/-! ## The policies that drop -/

namespace Writer

variable {spec : PublishSpec} {handed : List Item} {w : Writer}

/-- The queue is within its bound. -/
def Room (spec : PublishSpec) (w : Writer) : Prop := spec.buffer ≠ 0 → w.queue.length ≤ spec.buffer

/-- What admitting leaves under `drop_new` and `drop_oldest`: an object dropped opens no group, or
the next one does. -/
structure Dropping (spec : PublishSpec) (w : Writer) (item : Item)
    (out : Writer × Except WriteError Bool) : Prop where
  room : Room spec out.1
  group : out.1.group = w.group
  object : out.1.object = w.object
  putter : out.1.putter = w.putter
  outcome : out.2 = .ok true ∧ items out.1.queue ⊆ items w.queue ++ [item] ∨
    out.2 = .ok false ∧ items out.1.queue ⊆ items w.queue ∧
      (out.1.forceNew = true ∨ item.groupStart = false ∧ out.1.forceNew = w.forceNew)

theorem putNowait_dropping {kept : Writer} (hfull : full spec kept = false) {item : Item}
    (hgroup : kept.group = w.group) (hobject : kept.object = w.object)
    (hputter : kept.putter = w.putter) (hsub : items kept.queue ⊆ items w.queue) :
    Dropping spec w item (putNowait spec kept (some item)) := by
  unfold putNowait
  rw [if_neg (Bool.eq_false_iff.mp hfull)]
  refine ⟨fun hbuffer => ?_, hgroup, hobject, hputter, .inl ⟨rfl, ?_⟩⟩
  · have hroom : ¬ (spec.buffer ≠ 0 ∧ spec.buffer ≤ kept.queue.length) := of_decide_eq_false hfull
    show (kept.queue ++ [some item]).length ≤ spec.buffer
    rw [List.length_append, List.length_singleton]
    omega
  · show items (kept.queue ++ [some item]) ⊆ _
    rw [items_append_some]
    exact List.append_subset.mpr ⟨fun i hi => List.mem_append_left _ (hsub hi),
      List.subset_append_right _ _⟩

theorem abandon_room (h : Room spec w) (groupId : Int) : Room spec (w.abandon groupId) := by
  intro hbuffer
  rw [(w.abandon_fields groupId).1]
  exact (List.length_filter_le _ _).trans (h hbuffer)

theorem abandon_items_subset (w : Writer) (groupId : Int) :
    items (w.abandon groupId).queue ⊆ items w.queue := by
  rw [(w.abandon_fields groupId).1, items_filter]
  exact fun i hi => List.mem_of_mem_filter hi

/-- Where the oldest leaves there is room. -/
theorem not_full_of_evicted {oldest : Option Item} {queue : List (Option Item)} {kept : Writer}
    (hqueue : w.queue = oldest :: queue) (hroom : Room spec w)
    (hkept : kept.queue.length ≤ queue.length) : full spec kept = false := by
  refine decide_eq_false fun hfull => ?_
  have hbound := hroom hfull.1
  rw [hqueue, List.length_cons] at hbound
  omega

/-- The oldest object made room for the next one. -/
theorem evict_dropping (kept : Writer) {oldest : Item} {queue : List (Option Item)} {item : Item}
    (hqueue : w.queue = some oldest :: queue) (hroom : Room spec w)
    (hgroup : item.groupId = w.group)
    (hkept : kept.queue = queue ∧ kept.group = w.group ∧ kept.object = w.object ∧
      kept.putter = w.putter) :
    Dropping spec w item (
      if oldest.groupStart then
        let w := kept.abandon oldest.groupId
        if item.groupId = oldest.groupId then (w.drop [some item], .ok false)
        else putNowait spec w (some item)
      else putNowait spec kept (some item)) := by
  obtain ⟨hkqueue, hkgroup, hkobject, hkputter⟩ := hkept
  have hsub : items kept.queue ⊆ items w.queue := by
    rw [hkqueue, hqueue, items_cons_some]
    exact List.subset_cons_self oldest _
  obtain ⟨haqueue, hagroup, haobject, haforce, haputter⟩ := kept.abandon_fields oldest.groupId
  have hasub : items (kept.abandon oldest.groupId).queue ⊆ items w.queue :=
    fun i hi => hsub (kept.abandon_items_subset oldest.groupId hi)
  have halength : (kept.abandon oldest.groupId).queue.length ≤ queue.length := by
    rw [haqueue, ← hkqueue]
    exact List.length_filter_le _ _
  dsimp only
  split
  · split
    case isTrue hsame =>
      refine ⟨fun hbuffer => ?_, hagroup.trans hkgroup, haobject.trans hkobject,
        haputter.trans hkputter, .inr ⟨rfl, hasub, .inl ?_⟩⟩
      · have hbound := hroom hbuffer
        rw [hqueue, List.length_cons] at hbound
        show (kept.abandon oldest.groupId).queue.length ≤ spec.buffer
        omega
      · show (kept.abandon oldest.groupId).forceNew = true
        rw [haforce, hkgroup, ← hgroup, hsame]
        exact Bool.or_eq_true_iff.mpr (.inr (decide_eq_true rfl))
    · exact putNowait_dropping (not_full_of_evicted hqueue hroom halength)
        (hagroup.trans hkgroup) (haobject.trans hkobject) (haputter.trans hkputter) hasub
  · exact putNowait_dropping (not_full_of_evicted hqueue hroom (congrArg List.length hkqueue).le)
      hkgroup hkobject hkputter hsub

theorem admit_dropping (hpolicy : spec.onFull = .dropNew ∨ spec.onFull = .dropOldest)
    (hroom : Room spec w) {item : Item} (hgroup : item.groupId = w.group) :
    Dropping spec w item (admitItem spec w item) := by
  unfold admitItem
  by_cases hfull : full spec w = true
  · rw [if_pos hfull]
    rcases hpolicy with hpolicy | hpolicy
    · rw [hpolicy]
      dsimp only
      obtain ⟨-, hagroup, haobject, haforce, haputter⟩ :=
        (w.drop [some item]).abandon_fields item.groupId
      split
      · have hdropped : Room spec (w.drop [some item]) := hroom
        refine ⟨abandon_room hdropped _, hagroup, haobject, haputter, .inr ⟨rfl, ?_, .inl ?_⟩⟩
        · exact abandon_items_subset (w.drop [some item]) item.groupId
        · rw [haforce, hgroup]
          exact Bool.or_eq_true_iff.mpr (.inr (decide_eq_true rfl))
      case isFalse hstart =>
        exact ⟨hroom, rfl, rfl, rfl, .inr ⟨rfl, fun _ hi => hi, .inr
          ⟨Bool.eq_false_iff.mpr hstart, rfl⟩⟩⟩
    · rw [hpolicy]
      dsimp only
      match hqueue : w.queue with
      | [] =>
          have hfull' := of_decide_eq_true hfull
          rw [hqueue] at hfull'
          exact absurd (Nat.le_zero.mp hfull'.2) hfull'.1
      | none :: queue =>
          refine putNowait_dropping (not_full_of_evicted hqueue hroom le_rfl) rfl rfl rfl ?_
          rw [hqueue, items_cons_none]
          exact fun _ hi => hi
      | some oldest :: queue =>
          exact evict_dropping ({ w with queue }.drop [some oldest]) hqueue hroom hgroup
            ⟨rfl, rfl, rfl, rfl⟩
  · rw [if_neg hfull]
    exact putNowait_dropping (Bool.eq_false_iff.mpr hfull) rfl rfl rfl fun _ hi => hi

/-- The writer of a policy that drops, between two calls: every number of the line is spent, and
the newest group was opened or the next object opens another. -/
structure Spent (spec : PublishSpec) (handed : List Item) (w : Writer) : Prop where
  putter : w.putter = none
  room : Room spec w
  bound : ∀ i ∈ handed ++ items w.queue,
    i.groupId < w.group ∨ i.groupId = w.group ∧ i.objectId < w.object
  opened : 0 ≤ w.group → w.forceNew = false → 0 < w.object

/-- A write that opens no group continues the newest. -/
theorem Spent.continues (h : Spent spec handed w) (hopens : opens spec w = false) :
    Continues (handed ++ items w.queue) w.group w.object := by
  obtain ⟨hgroup, hrest⟩ := not_or.mp (of_decide_eq_false hopens)
  have hforce := (not_or.mp hrest).1
  refine ⟨h.opened (not_lt.mp hgroup) (Bool.eq_false_iff.mpr hforce), fun i hi heq => ?_⟩
  rcases h.bound i hi with hlt | ⟨-, hlt⟩ <;> omega

theorem Spent.advance (h : Spent spec handed w) : ∀ i ∈ handed ++ items w.queue,
    i.groupId < w.group + 1 := by
  intro i hi
  rcases h.bound i hi with hlt | ⟨heq, -⟩ <;> omega

/-- A call under these policies spends its number or opens the way to a new group. -/
theorem put_spent (hpolicy : spec.onFull = .dropNew ∨ spec.onFull = .dropOldest)
    (hputter : w.putter = none) (hroom : Room spec w) (data : Bytes) (groupStart : Bool)
    (hbound : ∀ i ∈ handed ++ items w.queue,
      i.groupId < w.group ∨ i.groupId = w.group ∧ i.objectId < w.object)
    (hopened : groupStart = false → w.forceNew = false → 0 < w.object) :
    Spent spec handed (put spec w data groupStart).1 := by
  have hnever : ¬ (full spec w = true ∧ spec.onFull = .block) := by
    rintro ⟨-, hblock⟩
    rcases hpolicy with h | h <;> rw [h] at hblock <;> cases hblock
  unfold put
  dsimp only
  rw [if_neg hnever]
  obtain ⟨hroom', hgroup, hobject, hputter', houtcome⟩ :=
    @admit_dropping spec w hpolicy hroom ⟨w.group, w.object, data, groupStart⟩ rfl
  generalize admitItem spec w ⟨w.group, w.object, data, groupStart⟩ = out at *
  obtain ⟨w', result⟩ := out
  dsimp only at hroom' hgroup hobject hputter' houtcome
  rcases houtcome with ⟨rfl, hsub⟩ | ⟨rfl, hsub, hforce⟩
  · refine ⟨hputter'.trans hputter, hroom', fun i hi => ?_, fun _ _ => Nat.succ_pos _⟩
    show i.groupId < w'.group ∨ i.groupId = w'.group ∧ i.objectId < w'.object + 1
    rw [hgroup, hobject]
    rcases List.mem_append.mp hi with hhanded | hqueue
    · rcases hbound i (List.mem_append_left _ hhanded) with hlt | ⟨heq, hlt⟩ <;> omega
    · rcases List.mem_append.mp (hsub hqueue) with hqueue | hnew
      · rcases hbound i (List.mem_append_right _ hqueue) with hlt | ⟨heq, hlt⟩ <;> omega
      · rw [List.mem_singleton.mp hnew]
        exact .inr ⟨rfl, Nat.lt_succ_self _⟩
  · refine ⟨hputter'.trans hputter, hroom', fun i hi => ?_, fun _ hkept => ?_⟩
    · show i.groupId < w'.group ∨ i.groupId = w'.group ∧ i.objectId < w'.object
      rw [hgroup, hobject]
      exact hbound i <| (List.mem_append.mp hi).elim (List.mem_append_left _)
        fun hqueue => List.mem_append_right _ (hsub hqueue)
    · have hkept' : w'.forceNew = false := hkept
      show 0 < w'.object
      rw [hobject]
      rcases hforce with hforce | ⟨hstart, hsame⟩
      · rw [hforce] at hkept'
        cases hkept'
      · exact hopened hstart (hsame.symm.trans hkept')

theorem Spent.put_advanced (h : Spent spec handed w)
    (hpolicy : spec.onFull = .dropNew ∨ spec.onFull = .dropOldest) (data : Bytes) :
    Spent spec handed (put spec w.advanceGroup data true).1 :=
  put_spent (w := w.advanceGroup) hpolicy h.putter h.room data true
    (fun i hi => .inl (h.advance i hi)) fun hstart => (by cases hstart)

theorem Spent.snapshot (h : Spent spec handed w)
    (hpolicy : spec.onFull = .dropNew ∨ spec.onFull = .dropOldest) (data : Bytes) :
    Spent spec handed (snapshot spec w data).1 := by
  unfold Writer.snapshot
  split
  · exact h
  · exact h.put_advanced hpolicy data

theorem Spent.write (h : Spent spec handed w)
    (hpolicy : spec.onFull = .dropNew ∨ spec.onFull = .dropOldest) (data : Bytes) :
    Spent spec handed (write spec w data).1 := by
  unfold Writer.write
  split
  · exact h
  · split
    · exact h.put_advanced hpolicy data
    case isFalse hopens =>
      have hgroup := not_lt.mp (not_or.mp (of_decide_eq_false (Bool.eq_false_iff.mpr hopens))).1
      exact put_spent hpolicy h.putter h.room data false h.bound fun _ => h.opened hgroup

end Writer

namespace State

variable {spec : PublishSpec} {s : State}

theorem call_spent {out : Writer × Outcome} (h : Writer.Spent spec s.handed out.1) (data : Bytes) :
    Writer.Spent spec (s.call data out).handed (s.call data out).writer := by
  obtain ⟨w, outcome⟩ := out
  cases outcome <;> exact h

theorem close_spent (h : Writer.Spent spec s.handed s.writer) :
    Writer.Spent spec (s.close spec).handed (s.close spec).writer := by
  unfold close
  split
  · exact h
  dsimp only
  rw [h.putter, Option.map_none]
  unfold Writer.putNowait
  split
  · exact ⟨rfl, h.room, h.bound, h.opened⟩
  case isFalse hfull =>
    refine ⟨rfl, fun hbuffer => ?_, fun i hi => h.bound i ?_, h.opened⟩
    · have hroom : ¬ (spec.buffer ≠ 0 ∧ spec.buffer ≤ s.writer.queue.length) :=
        of_decide_eq_false (Bool.eq_false_iff.mpr hfull)
      show (s.writer.queue ++ [none]).length ≤ spec.buffer
      rw [List.length_append, List.length_singleton]
      omega
    · rwa [show items (s.writer.queue ++ [none]) = items s.writer.queue from
        items_append_none _] at hi

theorem produce_spent (h : Writer.Spent spec s.handed s.writer) :
    Writer.Spent spec s.produce.handed s.produce.writer := by
  unfold produce
  cases s.production with
  | head => dsimp only; split <;> exact h
  | writing => exact h
  | ended => exact h
  | getting =>
      dsimp only
      have hshorter : ∀ {oldest : Option Item} {queue : List (Option Item)},
          s.writer.queue = oldest :: queue → Writer.Room spec { s.writer with queue } := by
        intro oldest queue hqueue hbuffer
        have hbound := h.room hbuffer
        rw [hqueue, List.length_cons] at hbound
        exact (Nat.le_succ _).trans hbound
      split
      case h_1 => exact h
      case h_2 queue hqueue =>
        refine ⟨h.putter, hshorter hqueue, ?_, h.opened⟩
        have hbound := h.bound
        rw [hqueue, items_cons_none] at hbound
        exact hbound
      case h_3 item queue hqueue =>
        refine ⟨h.putter, hshorter hqueue, ?_, h.opened⟩
        have hbound := h.bound
        rw [hqueue, items_cons_some] at hbound
        rw [List.append_assoc]
        exact hbound

/-- Without a call that waits its steps do nothing. -/
theorem step_spent (hpolicy : spec.onFull = .dropNew ∨ spec.onFull = .dropOldest)
    (h : Writer.Spent spec s.handed s.writer) (e : Step) :
    Writer.Spent spec (s.step spec e).handed (s.step spec e).writer := by
  have hputter := h.putter
  cases e with
  | snapshot data =>
      simp only [step, hputter, Option.isSome_none, Bool.false_eq_true, if_false]
      exact call_spent (h.snapshot hpolicy data) data
  | write data =>
      simp only [step, hputter, Option.isSome_none, Bool.false_eq_true, if_false]
      exact call_spent (h.write hpolicy data) data
  | endGroup => exact ⟨h.putter, h.room, h.bound, fun _ hforce => (by cases hforce)⟩
  | close => exact close_spent h
  | put =>
      simp only [step, Writer.putRuns, hputter]
      exact h
  | resume =>
      simp only [step, resume, hputter]
      exact h
  | cancel =>
      simp only [step, cancel, hputter]
      exact h
  | produce => exact produce_spent h
  | fail => exact h

theorem meets_of_spent (h : Writer.Spent spec s.handed s.writer) (e : Step) : Meets spec s e := by
  cases e with
  | write data => exact fun _ _ hopens _ => h.continues hopens
  | put =>
      intro item hpending
      rw [h.putter] at hpending
      cases hpending
  | snapshot | endGroup | close | resume | cancel | produce | fail => exact True.intro

/-- **A policy that drops always meets the condition.** -/
theorem meetsAll_of_drops (hpolicy : spec.onFull = .dropNew ∨ spec.onFull = .dropOldest)
    (h : Writer.Spent spec s.handed s.writer) (steps : List Step) : MeetsAll spec s steps := by
  induction steps generalizing s with
  | nil => exact True.intro
  | cons e steps ih => exact ⟨meets_of_spent h e, ih (step_spent hpolicy h e)⟩

end State

/-! ## Runs -/

/-- Nothing has been handed on twice or out of order, and each group is opened by its first
object. -/
structure WellNumbered (handed : List Item) : Prop where
  ascending : handed.Pairwise Item.Before
  starts : ∀ before item after, handed = before ++ item :: after →
    (item.groupStart = true ↔ ∀ i ∈ before, i.groupId ≠ item.groupId)

/-- **Writer numbering.**  In every run whose writes continue only groups that were opened, at
numbers that are free, the objects handed on ascend and open their groups; in every run the calls
that returned are handed on, queued or dropped once each.  The policies that drop need no
condition. -/
theorem objects_numbered (spec : PublishSpec) (steps : List Step) {s : State}
    (hrun : State.run spec {} steps = s) :
    (MeetsAll spec {} steps ∨ spec.onFull = .dropNew ∨ spec.onFull = .dropOldest →
        WellNumbered s.handed) ∧
      (s.returned ++ s.orphans ++ s.inflight).Perm
        ((s.handed ++ items s.writer.queue).map Item.payload ++ s.writer.lost) ∧
      s.writer.stats.dropped = s.writer.lost.length := by
  have haccounts := State.run_accounted spec (s := {})
    ⟨rfl, fun hnone => absurd hnone List.not_mem_nil, fun b => rfl⟩ steps
  rw [hrun] at haccounts
  refine ⟨?_, ?_, haccounts.dropped⟩
  · intro hmeets
    have hstart : State.Whole {} := by
      refine ⟨⟨List.Pairwise.nil, ?_, ?_, ?_, fun hpos => absurd hpos (lt_irrefl 0)⟩, ?_, ?_⟩
      · exact fun i hi => absurd hi List.not_mem_nil
      · exact fun i hi => absurd hi List.not_mem_nil
      · exact fun i hi => absurd hi List.not_mem_nil
      · exact fun item hpending => by cases hpending
      · exact fun item hdone => by cases hdone
    have hsteps : MeetsAll spec {} steps := by
      refine hmeets.elim id fun hpolicy => State.meetsAll_of_drops hpolicy ?_ steps
      exact ⟨rfl, fun _ => Nat.zero_le _, fun i hi => absurd hi List.not_mem_nil,
        fun hgroup => absurd hgroup (by decide)⟩
    have hwhole := State.run_whole hstart hsteps
    rw [hrun] at hwhole
    refine ⟨(List.pairwise_append.mp hwhole.sound.sorted).1, ?_⟩
    intro before item after hhanded
    have hline := hwhole.sound
    unfold Writer.Sound at hline
    rw [hhanded, List.append_assoc, List.cons_append] at hline
    exact hline.start_iff
  · refine List.perm_iff_count.mpr fun b => ?_
    have hcalls := haccounts.calls b
    unfold Writer.stock at hcalls
    rw [List.map_append, List.count_append, List.count_append, List.count_append,
      List.count_append]
    omega

/-- A snapshot and two writes, the first of them after waiting for room. -/
theorem objects_numbered_waiting :
    ∃ s, State.run ⟨"t", none, 1, .block⟩ {} [.snapshot [1], .write [2], .produce, .produce, .put,
        .resume, .produce, .produce, .produce, .write [3]] = s ∧
      s.handed = [⟨0, 0, [1], true⟩, ⟨0, 1, [2], false⟩] ∧ WellNumbered s.handed := by
  refine ⟨_, rfl, by decide, (objects_numbered ⟨"t", none, 1, .block⟩ _ rfl).1 (.inl ?_)⟩
  refine ⟨True.intro, fun _ _ _ hroom => absurd hroom (by decide), True.intro, True.intro,
    fun item hpending _ _ => ?_, True.intro, True.intro, True.intro, True.intro,
    fun _ _ _ _ => ⟨by decide, by decide⟩, True.intro⟩
  cases hpending
  exact ⟨by decide, by decide⟩

/-- A refused snapshot leaves a group that the next write does not open; a caller cancelled after
its object was queued leaves a number that the next write takes again. -/
theorem objects_misnumbered :
    ¬ WellNumbered (State.run ⟨"t", none, 1, .error⟩ {} [.snapshot [1], .snapshot [2], .produce,
        .produce, .write [3], .produce, .produce, .produce]).handed ∧
      ¬ WellNumbered (State.run ⟨"t", none, 1, .block⟩ {} [.snapshot [1], .snapshot [2], .cancel,
        .resume, .produce, .produce, .write [3], .produce, .produce, .produce]).handed ∧
      ¬ WellNumbered (State.run ⟨"t", none, 1, .block⟩ {} [.snapshot [1], .write [2], .produce,
        .produce, .put, .cancel, .produce, .produce, .produce, .write [3], .produce, .produce,
        .produce]).handed := by
  refine ⟨fun h => ?_, fun h => ?_, fun h => ?_⟩
  · have hstart := (h.starts [⟨0, 0, [1], true⟩] ⟨1, 0, [3], false⟩ [] (by decide)).mpr (by decide)
    exact absurd hstart (by decide)
  · have hstart := (h.starts [⟨0, 0, [1], true⟩] ⟨1, 0, [3], false⟩ [] (by decide)).mpr (by decide)
    exact absurd hstart (by decide)
  · have hascending := h.ascending
    unfold Item.Before at hascending
    exact absurd hascending (by decide)

end AioMoqt.Agent
