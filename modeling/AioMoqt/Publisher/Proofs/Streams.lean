import AioMoqt.Publisher.Proofs.Producers
import AioMoqt.Publisher.Proofs.Streams.Coding

/-!
# The streams of a generated track

Every stream a sender writes decodes to what was generated, in every run in which a sender
opens one stream a group and its window is not widened again over what was passed over.
-/

namespace AioMoqt.Publisher

open AioMoqt.Lib AioMoqt.Messages

namespace Track

/-- How a step may go on: a task that runs for a live session goes on with its open stream as
it left it. -/
def Steady (cfg : Config) (t : Track) : Action → Prop
  | .run i _ => ∀ k, t.tasks i = some k → k.cancelled = false → k.stream.isSome →
      (t.subs k.peer).closed = false → t.SteadyTask cfg k
  | _ => True

/-- From `t` to `u`, the streams were written to while they were open, by the task that has
them open, with the object it was sending or with a marker; what a task codes, its window
admits; and a stream that ended with FIN is complete. -/
structure Streams (cfg : Config) (t u : Track) : Prop where
  shut : ∀ sid < t.nextStream, (t.streams sid).state ≠ .opened →
    (u.streams sid).header = (t.streams sid).header ∧
      (u.streams sid).items = (t.streams sid).items
  items : ∀ sid < t.nextStream, (u.streams sid).items = (t.streams sid).items ∨
    ∃ i k item, t.tasks i = some k ∧ k.stream = some sid ∧
      (u.streams sid).items = (t.streams sid).items ++ [item] ∧
        (item.status ≠ .normal ∨ ∃ obj rest, k.pc = .sending sid obj item rest false)
  complete : ∀ sid < t.nextStream, (u.streams sid).state = .fin →
    (t.streams sid).state = .fin ∨
      (u.streams sid).Complete cfg (t.subs (t.streams sid).peer)
  admits : ∀ i l sid obj item rest, u.tasks i = some l → l.cancelled = false →
    l.pc = .sending sid obj item rest false →
      (∃ k, t.tasks i = some k ∧ k.pc = l.pc) ∨
        (t.subs l.peer).passes l.group obj.object = true

/-! ## Runs -/

/-- What holds in every run whose steps are steady. -/
structure Coherent (cfg : Config) (t : Track) : Prop where
  recorded : t.Recorded cfg
  coding : ∀ i k, t.tasks i = some k → k.cancelled = false → t.Coding cfg k

variable {cfg : Config} {t u : Track} {k l : Task} {i : Nat}

theorem Recorded.still (h : t.Recorded cfg) (hstill : Still t u) : u.Recorded cfg where
  history := hstill.history ▸ h.history
  written := hstill.written ▸ h.written
  decodes sid hsid := by
    rw [hstill.nextStream] at hsid
    rw [hstill.written, (hstill.streams sid).same]
    exact (h.decodes sid hsid).congr _ rfl rfl rfl rfl rfl (List.Subset.refl _)

/-- A stream that was not written to still agrees with its task. -/
theorem codes_untouched {s s' : Stream} (h : k.Codes cfg s) (hsame : s.Untouched s')
    (halike : k.Alike l) : l.Codes cfg s' := by
  have hlast : l.last = k.last := by rw [Task.last, halike.header, Task.last]
  have hnext : l.nextId = k.nextId := by rw [Task.nextId, halike.header, Task.nextId]
  rw [hsame.same]
  unfold Task.Codes Task.Continues at *
  rw [halike.pc, hlast, halike.short, halike.object, hnext]
  exact h

theorem Coding.untouched (h : t.Coding cfg k)
    (hstreams : ∀ sid, k.stream = some sid → (t.streams sid).Untouched (u.streams sid))
    (halike : k.Alike l) : u.Coding cfg l where
  headed := by
    rw [halike.header, halike.group]
    exact h.headed
  payloads := by
    rw [halike.pc, halike.group]
    exact h.payloads
  owns sid hsid := by
    have hsid : k.stream = some sid := by
      obtain hnone | hsame := halike.stream
      · simp [hnone] at hsid
      · exact hsame ▸ hsid
    have howns := h.owns sid hsid
    rw [(hstreams sid hsid).same]
    exact ⟨howns.peer.trans halike.peer.symm, howns.trackAlias.trans halike.trackAlias.symm,
      howns.group.trans halike.group.symm, howns.subgroup.trans halike.subgroup.symm⟩
  codes sid hsid := by
    have hsid : k.stream = some sid := by
      obtain hnone | hsame := halike.stream
      · simp [hnone] at hsid
      · exact hsame ▸ hsid
    exact codes_untouched (h.codes sid hsid) (hstreams sid hsid) halike

theorem Coherent.agrees (h : t.Coherent cfg) (hagrees : Agrees t u) : u.Coherent cfg where
  recorded := h.recorded.still hagrees.toStill
  coding i l hl hlive := by
    obtain ⟨k, hk, halike⟩ := hagrees.tasks i l hl hlive
    have hcoding := h.coding i k hk (halike.cancelled ▸ hlive)
    exact hcoding.untouched (fun sid _ => hagrees.streams sid) halike

/-- A new task has coded nothing. -/
theorem coding_spawned (u : Track) (p trackAlias skip i : Nat) :
    u.Coding cfg (t.spawned p trackAlias skip i) where
  headed := by simp [spawned]
  payloads := by simp [spawned, Pc.objects]
  owns := by simp [spawned]
  codes := by simp [spawned]

theorem Coherent.startGenerating (h : t.Coherent cfg) (p skip : Nat) :
    (t.startGenerating cfg p skip).Coherent cfg where
  recorded := h.recorded.still (Still.startGenerating ..)
  coding i k hk hlive := by
    unfold Track.startGenerating at hk ⊢
    simp only at hk ⊢
    split at hk
    next hidle =>
        rw [if_pos hidle]
        exact h.coding i k hk hlive
    next hidle =>
        rw [if_neg hidle]
        obtain ⟨-, -, rfl⟩ | hk := spawnProducers_eq_some hk
        · exact coding_spawned ..
        · have hcoding := h.coding i k hk hlive
          exact ⟨hcoding.headed, hcoding.payloads, hcoding.owns, hcoding.codes⟩

/-- The stream of another task is as it was. -/
theorem Wrote.untouched (h : t.Wrote cfg k u) (htracked : t.Tracked cfg) (hk : t.tasks i = some k)
    {j : Nat} {l : Task} (hl : t.tasks j = some l) (hne : j ≠ i) :
    ∀ sid, l.stream = some sid → (t.streams sid).Untouched (u.streams sid) := by
  intro sid hsid
  have hother : u.streams sid = t.streams sid := by
    apply h.others sid ((htracked.each j l hl).known sid hsid).1
    exact fun hheld => htracked.apart i j k l hk hl hne.symm sid hheld hsid
  rw [hother]
  exact Stream.Untouched.refl _

/-- What a task that ran does to the streams. -/
theorem Streams.of_wrote (h : t.Wrote cfg k u) (htracked : t.Tracked cfg) (hk : t.tasks i = some k)
    (htasks : u.tasks = t.tasks) {o : Option Task}
    (hadmits : ∀ l, o = some l → ∀ sid obj item rest, l.pc = .sending sid obj item rest false →
      (t.subs l.peer).passes l.group obj.object = true) :
    Streams cfg t (u.setTask i o) where
  shut sid hsid hshut := by
    by_cases hown : k.stream = some sid
    · exact (h.own sid hown).first hshut
    · rw [setTask_streams, h.others sid hsid hown]
      exact ⟨rfl, rfl⟩
  items sid hsid := by
    by_cases hown : k.stream = some sid
    · obtain hsame | ⟨item, hitems, hsent⟩ := (h.own sid hown).items
      · exact Or.inl hsame
      · exact Or.inr ⟨i, k, item, hk, hown, hitems, hsent⟩
    · rw [setTask_streams, h.others sid hsid hown]
      exact Or.inl rfl
  complete sid hsid hfin := by
    by_cases hown : k.stream = some sid
    · rw [((htracked.each i k hk).known sid hown).2]
      exact (h.own sid hown).complete hfin
    · rw [setTask_streams, h.others sid hsid hown] at hfin
      exact Or.inl hfin
  admits j l sid obj item rest hl hlive hpc := by
    obtain ⟨-, heq⟩ | ⟨-, hl⟩ := Table.update_eq_some hl
    · exact Or.inr (hadmits l heq sid obj item rest hpc)
    · rw [htasks] at hl
      exact Or.inl ⟨l, hl, rfl⟩

/-- A task that is told to end writes nothing. -/
theorem Streams.of_agrees (h : Agrees t u) : Streams cfg t u where
  shut sid _ _ := by
    rw [(h.streams sid).same]
    exact ⟨rfl, rfl⟩
  items sid _ := by
    left
    rw [(h.streams sid).same]
  complete sid _ hfin := Or.inl ((h.streams sid).fin hfin)
  admits i l sid obj item rest hl hlive _ := by
    obtain ⟨k, hk, halike⟩ := h.tasks i l hl hlive
    exact Or.inl ⟨k, hk, halike.pc.symm⟩

theorem agrees_cancelled (t : Track) (k : Task) (i : Nat) :
    Agrees t ((t.reset k).1.setTask i none) := by
  refine (Agrees.reset t k).trans ⟨⟨rfl, rfl, rfl, fun _ => Stream.Untouched.refl _⟩, rfl, ?_⟩
  intro j l hl _
  obtain ⟨-, heq⟩ | ⟨-, hl⟩ := Table.update_eq_some hl
  · simp at heq
  · exact ⟨l, hl, Task.Alike.refl l⟩

/-- New tasks write nothing yet. -/
theorem Streams.startGenerating (h : Agrees t u) (p skip : Nat) :
    Streams cfg t (u.startGenerating cfg p skip) := by
  have hstill := h.toStill.trans (Still.startGenerating cfg u p skip)
  have hkept : Streams cfg t u := Streams.of_agrees h
  refine ⟨?_, ?_, fun sid _ hfin => Or.inl ((hstill.streams sid).fin hfin), ?_⟩
  · intro sid _ _
    rw [(hstill.streams sid).same]
    exact ⟨rfl, rfl⟩
  · intro sid _
    left
    rw [(hstill.streams sid).same]
  · intro i l sid obj item rest hl hlive hpc
    unfold Track.startGenerating at hl
    simp only at hl
    split at hl
    · exact hkept.admits i l sid obj item rest hl hlive hpc
    · obtain ⟨-, -, rfl⟩ | hl := spawnProducers_eq_some hl
      · simp [spawned] at hpc
      · exact hkept.admits i l sid obj item rest hl hlive hpc

/-- One task has run, and the others are as they were. -/
theorem Coherent.advance {o : Option Task} (h : t.Coherent cfg) (htracked : t.Tracked cfg)
    (hwrote : t.Wrote cfg k u) (hk : t.tasks i = some k) (htasks : u.tasks = t.tasks)
    (ho : ∀ l, o = some l → u.Coding cfg l) : (u.setTask i o).Coherent cfg where
  recorded := hwrote.recorded.frame rfl rfl rfl rfl
  coding j l hl hlive := by
    obtain ⟨-, heq⟩ | ⟨hne, hl⟩ := Table.update_eq_some hl
    · have hcoding := ho l heq
      exact ⟨hcoding.headed, hcoding.payloads, hcoding.owns, hcoding.codes⟩
    · rw [htasks] at hl
      exact (h.coding j l hl hlive).untouched (hwrote.untouched htracked hk hl hne)
        (Task.Alike.refl l)

/-- A task runs. -/
theorem Coherent.runTask {stamp : Stamp} (htracked : t.Tracked cfg) (hstanding : t.Standing cfg [])
    (h : t.Coherent cfg) (hsteady : t.Steady cfg (.run i stamp)) :
    (t.runTask cfg i stamp).Coherent cfg ∧ Streams cfg t (t.runTask cfg i stamp) := by
  unfold Track.runTask
  cases hk : t.tasks i with
  | none => exact ⟨h, Streams.of_agrees (Agrees.refl t)⟩
  | some k =>
      simp only
      split
      · have hagrees := agrees_cancelled t k i
        exact ⟨h.agrees hagrees, Streams.of_agrees hagrees⟩
      next hlive =>
          have hlive : k.cancelled = false := by simpa using hlive
          have htask := htracked.each i k hk
          have hplaced := (hstanding.placed i k hk hlive).1
          have hcodes := resume_codes h.recorded htask hplaced (h.coding i k hk hlive)
            (hsteady k hk hlive) stamp
          have htasks := resume_tasks htask stamp
          generalize t.resume cfg k stamp = outcome at hcodes htasks ⊢
          cases outcome with
          | awaits u l =>
              obtain ⟨hwrote, hcoding, hadmits⟩ := hcodes
              refine ⟨h.advance htracked hwrote hk htasks ?_,
                Streams.of_wrote hwrote htracked hk htasks ?_⟩
              · intro m hm
                obtain rfl := Option.some.inj hm
                exact hcoding
              · intro m hm
                obtain rfl := Option.some.inj hm
                exact hadmits
          | ends u =>
              have hwrote : t.Wrote cfg k u := hcodes
              exact ⟨h.advance htracked hwrote hk htasks (by simp),
                Streams.of_wrote hwrote htracked hk htasks (by simp)⟩

/-- A step of a steady run. -/
theorem Coherent.step {a : Action} (htracked : t.Tracked cfg) (hstanding : t.Standing cfg [])
    (h : t.Coherent cfg) (hsteady : t.Steady cfg a) :
    (t.step cfg a).Coherent cfg ∧ Streams cfg t (t.step cfg a) := by
  apply step_cases (P := fun u => u.Coherent cfg ∧ Streams cfg t u)
  case peers => exact fun u hagrees => ⟨h.agrees hagrees, Streams.of_agrees hagrees⟩
  case starts =>
    intro u p skip hagrees
    exact ⟨(h.agrees hagrees).startGenerating p skip, Streams.startGenerating hagrees p skip⟩
  case runs =>
    rintro i stamp rfl
    exact h.runTask htracked hstanding hsteady

theorem Coherent.start (endsWithDone : Bool) :
    ({ subs := fun _ => { endsWithDone } } : Track).Coherent cfg where
  recorded := ⟨by simp, by simp, fun _ h => absurd h (Nat.not_lt_zero _)⟩
  coding _ _ hk := by simp at hk

theorem standing_of_reached {cond : Track → Action → Prop} (run : Reached cfg cond t) :
    t.Standing cfg [] := by
  induction run with
  | start endsWithDone => exact Standing.start endsWithDone
  | step run a clear ih => exact ih.step (tracked_of_reached run) a

theorem coherent_of_reached (run : Reached cfg (Steady cfg) t) : t.Coherent cfg := by
  induction run with
  | start endsWithDone => exact Coherent.start endsWithDone
  | step run a clear ih =>
      exact (ih.step (tracked_of_reached run) (standing_of_reached run) clear).1

/-- In every steady run, each stream decodes to what the generator made, and every steady
step writes to open streams only, codes what the window admits, and ends with FIN the
streams that are complete. -/
theorem decodes_of_steady (run : Reached cfg (Steady cfg) t) :
    (∀ sid < t.nextStream, (t.streams sid).Decodes cfg t.written) ∧
      ∀ a, t.Steady cfg a → Streams cfg t (t.step cfg a) := by
  have hcoherent := coherent_of_reached run
  exact ⟨hcoherent.recorded.decodes, fun a hsteady =>
    (hcoherent.step (tracked_of_reached run) (standing_of_reached run) hsteady).2⟩

/-! ## Runs of a small track -/

/-- A check that a step is steady. -/
def steadily (cfg : Config) (t : Track) : Action → Bool
  | .run i _ => (t.tasks i).all fun k => k.stream.isNone || match k.pc with
      | .header _ obj true => k.last.isNone && (t.subs k.peer).passes k.group obj.object
      | .sending _ _ _ rest true =>
          rest.head?.all fun obj => (t.subs k.peer).passes k.group obj.object
      | .ready | .barrier =>
          if (t.rollsTo cfg k).isSome then cfg.groupSize ≤ k.nextId
          else k.last.map (· + cfg.numSubgroups) = some k.object
      | _ => true
  | _ => true

theorem steady_of_steadily {t : Track} {a : Action} (h : t.steadily cfg a = true) :
    t.Steady cfg a := by
  cases a with
  | run i stamp =>
      intro k hk _ hopen _
      simp only [steadily, hk, Option.all_some, Option.isNone_eq_false_iff.mpr hopen,
        Bool.false_or] at h
      have hready : (if (t.rollsTo cfg k).isSome then decide (cfg.groupSize ≤ k.nextId)
          else decide (k.last.map (· + cfg.numSubgroups) = some k.object)) = true →
          (∀ group, t.rollsTo cfg k = some group → t.Exhausts cfg k) ∧
          (t.rollsTo cfg k = none → k.object < cfg.groupSize →
            (t.subs k.peer).passes k.group k.object = true →
              k.short = false → k.last.map (· + cfg.numSubgroups) = some k.object) := by
        intro h
        constructor
        · intro group hrolls _ id hnext hlt
          have hall : cfg.groupSize ≤ k.nextId := by simpa [hrolls] using h
          omega
        · intro hrolls _ _ _
          simpa [hrolls] using h
      unfold SteadyTask
      split
      next hpc =>
        rw [hpc] at h
        exact fun _ => by simpa using h
      next hpc =>
        rw [hpc] at h
        exact fun obj hobj => Option.all_eq_true _ _ |>.mp h obj hobj
      next hpc =>
        rw [hpc] at h
        split
        next group hrolls => exact (hready h).1 group hrolls
        next hrolls => exact (hready h).2 hrolls
      next hpc =>
        rw [hpc] at h
        split
        next group hrolls => exact (hready h).1 group hrolls
        next hrolls => exact (hready h).2 hrolls
      next => trivial
  | _ => trivial

/-- A peer subscribes, and its task runs for so many stretches. -/
def sends (n : Nat) : List Action := subscribes 0 :: List.replicate n (runs 0)

/-- The peer pauses behind the first object, and the second is not sent; it resumes for the next
group, gets the first object of it, and moves its End Group there. -/
def cuts : List Action :=
  sends 6 ++ [.update 0 1 (some false) none false 0, runs 0,
    .update 0 1 (some true) none false 0] ++ List.replicate 5 (runs 0) ++
    [.update 0 1 none (some (.mk 0 0, some 1, none)) false 0] ++ List.replicate 5 (runs 0)

/-- The stream of the second group ends with FIN behind both objects and the marker. -/
theorem decodes_of_steady_sends : ((follow cuts).streams 0).state = .reset ∧
    ((follow cuts).streams 1).state = .fin ∧ ((follow cuts).streams 1).ids = [0, 1, 2] ∧
      ((follow cuts).streams 1).Decodes duo (follow cuts).written :=
  ⟨by decide +kernel, by decide +kernel, by decide +kernel,
    (decodes_of_steady (reached_of_checked (fun _ _ _ => steady_of_steadily) cuts (.start false)
      (by decide +kernel))).1 1 (by decide +kernel)⟩

/-- The first object is written, the peer pauses and resumes, and the second object opens a
stream of its own, where its delta still counts from the first. -/
def pauses : List Action :=
  sends 6 ++ [.update 0 1 (some false) none false 0, .update 0 1 (some true) none false 0] ++
    List.replicate 5 (runs 0)

theorem not_decodes_of_pause : ¬ ∀ (cfg : Config) (t : Track), Reached cfg (fun _ _ => True) t →
    (∀ sid < t.nextStream, (t.streams sid).Decodes cfg t.written) ∧
      ∀ a, Streams cfg t (t.step cfg a) := by
  intro h
  have hdecodes := (h duo (follow pauses) (reached_follow pauses)).1 1 (by decide +kernel)
  have hobjects : ((follow pauses).streams 1).objects.map
      (fun o => (o.1, o.2.payload, decide (o.2.status = .normal))) =
        [(0, duo.payload 0 1, true)] := by decide +kernel
  obtain ⟨⟨id, item⟩, hsingle, heq⟩ := List.map_eq_singleton_iff.mp hobjects
  simp only [Prod.mk.injEq, decide_eq_true_eq] at heq
  obtain ⟨rfl, hpayload, hstatus⟩ := heq
  have hgenerated := (hdecodes.normal 0 item (by rw [hsingle]; exact List.mem_singleton_self _)
    hstatus).1
  have hgroup : ((follow pauses).streams 1).group = 0 := by decide +kernel
  rw [hpayload, hgroup] at hgenerated
  have hdiffers : duo.payload 0 1 ≠ duo.payload 0 0 := by decide +kernel
  exact hdiffers hgenerated

end Track

end AioMoqt.Publisher
