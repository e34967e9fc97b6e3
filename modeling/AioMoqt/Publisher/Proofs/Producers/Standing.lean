import AioMoqt.Publisher.Proofs.Producers.Orderly

/-!
# Where the tasks of a track stand

The places of all its tasks, over a run: what the peers do moves none of them, a new task
starts after everything that was published, and one that runs moves on.
-/

namespace AioMoqt.Publisher

open AioMoqt.Lib AioMoqt.Messages

/-- Two entries are not of one Location for one peer. -/
def Written.Differs (w w' : Written) : Prop :=
  ¬ (w.peer = w'.peer ∧ w.group = w'.group ∧ w.object = w'.object)

namespace Track

/-! ## Locations -/

/-- A step: what is to be shown of the track after it, where a peer's event leaves the tasks
that go on where they are, where it starts new ones as well, and where a task runs. -/
theorem step_cases {P : Track → Prop} {cfg : Config} {t : Track} {a : Action}
    (peers : ∀ u, Agrees t u → P u)
    (starts : ∀ u p skip, Agrees t u → P (u.startGenerating cfg p skip))
    (runs : ∀ i stamp, a = .run i stamp → P (t.runTask cfg i stamp)) : P (t.step cfg a) := by
  cases a with
  | addSession endsWithDone => exact peers _ (Agrees.ofSubs rfl rfl rfl rfl rfl rfl)
  | subscribe p msg skip =>
      simp only [Track.step]
      split
      · by_cases haccepts : t.Accepts p msg
        · have hforwarded := forwarded_agrees t p msg
          rw [onSubscribe_of_accepts haccepts]
          split
          · exact starts _ p skip hforwarded
          · exact peers _ hforwarded
        · obtain hsame | hrefused : t.onSubscribe cfg p msg skip = t ∨ _ :=
            onSubscribe_of_not_accepts haccepts skip
          · rw [hsame]
            exact peers t (Agrees.refl t)
          · rw [hrefused]
            exact peers _ (Agrees.ofSubs rfl rfl rfl rfl rfl rfl)
      · exact peers t (Agrees.refl t)
  | update p request forward range fill skip =>
      simp only [Track.step]
      split
      · unfold Track.onRequestUpdate
        simp only
        split
        · have hupdated := updated_agrees t p request forward range fill
          split
          · exact starts _ p skip hupdated
          · exact peers _ hupdated
        · exact peers t (Agrees.refl t)
      · exact peers t (Agrees.refl t)
  | openFill p request =>
      simp only [Track.step, Track.openFill]
      split
      · exact peers _ (Agrees.ofSubs rfl rfl rfl rfl rfl rfl)
      · exact peers t (Agrees.refl t)
  | cancel p request =>
      simp only [Track.step]
      split
      · exact peers _ (Agrees.onRequestCancelled t p request)
      · exact peers t (Agrees.refl t)
  | run i stamp => exact runs i stamp rfl
  | stopSending sid =>
      simp only [Track.step]
      split
      · exact peers _ (Agrees.closeStream t sid (by simp))
      · exact peers t (Agrees.refl t)
  | closeSession p =>
      simp only [Track.step]
      split
      · exact peers _ (Agrees.closeSession t p)
      · exact peers t (Agrees.refl t)
  | endTrack => exact peers _ (Agrees.endTrack t)

/-- Where the tasks stand, against a log of what was written. -/
structure Standing (cfg : Config) (log : List Written) (t : Track) : Prop where
  groups : ∀ w ∈ log, ∃ loc ∈ t.largest, w.group ≤ loc.group
  placed : ∀ i k, t.tasks i = some k → k.cancelled = false → k.Placed cfg log ∧ t.Begun k

/-- The tasks stand after all that was written, which is each Location once. -/
structure Located (cfg : Config) (t : Track) : Prop extends t.Standing cfg t.written where
  once : t.written.Pairwise Written.Differs

/-- The Largest Location does not go back. -/
def Grows (t t' : Track) : Prop :=
  ∀ loc ∈ t.largest, ∃ loc' ∈ t'.largest, loc.group ≤ loc'.group

variable {cfg : Config} {log : List Written} {t t' u : Track} {k l : Task} {i : Nat}

theorem Grows.of_eq (h : t'.largest = t.largest) : Grows t t' := by
  intro loc hloc
  exact ⟨loc, h ▸ hloc, Nat.le_refl _⟩

theorem Grows.trans {v : Track} (h : Grows t u) (h' : Grows u v) : Grows t v := by
  intro loc hloc
  obtain ⟨loc', hloc', hle⟩ := h loc hloc
  obtain ⟨loc'', hloc'', hle'⟩ := h' loc' hloc'
  exact ⟨loc'', hloc'', hle.trans hle'⟩

theorem closeStream_largest (t : Track) (sid : Nat) (items : List Item) (state : StreamState) :
    (t.closeStream sid items state).largest = t.largest := by
  unfold closeStream
  simp only
  split <;> rfl

theorem noted_grows (t : Track) (k : Task) (stamp : Stamp) : Grows t (t.noted cfg k stamp) := by
  intro loc hloc
  rw [Option.mem_def] at hloc
  refine ⟨max (Location.mk k.group k.object) loc, ?_, ?_⟩
  · simp [noted, remember, hloc]
  · have hle : loc ≤ max (Location.mk k.group k.object) loc := le_max_right ..
    rw [Location.le_iff] at hle
    omega

theorem Move.grows {roll : Option Nat} {s s' : Track × Task} (m : Move cfg roll s s') :
    Grows s.1 s'.1 := by
  cases m with
  | note stamp => exact noted_grows _ _ stamp
  | reset => exact Grows.of_eq (Agrees.reset ..).largest
  | stop =>
      simp only [Track.stop]
      split <;> exact Grows.of_eq rfl
  | fin sid items hd held => exact Grows.of_eq (closeStream_largest ..)
  | rangeEnded =>
      simp only [Track.rangeEnded]
      split
      · split <;> exact Grows.of_eq rfl
      · exact Grows.of_eq rfl
  | _ => exact Grows.of_eq rfl

theorem Moves.grows {roll : Option Nat} {s s' : Track × Task}
    (ms : Relation.ReflTransGen (Move cfg roll) s s') : Grows s.1 s'.1 := by
  induction ms with
  | refl => exact Grows.of_eq rfl
  | tail _ m ih => exact ih.trans m.grows

theorem Begun.grows (h : t.Begun k) (hgrows : Grows t t') : t'.Begun k := by
  intro hheader
  obtain ⟨loc, hloc, hle⟩ := h hheader
  obtain ⟨loc', hloc', hle'⟩ := hgrows loc hloc
  exact ⟨loc', hloc', hle.trans hle'⟩

theorem Standing.agrees (h : t.Standing cfg log) (hagrees : Agrees t t') :
    t'.Standing cfg log where
  groups := by
    rw [hagrees.largest]
    exact h.groups
  placed i k hk hlive := by
    obtain ⟨l, hl, halike⟩ := hagrees.tasks i k hk hlive
    obtain ⟨hplaced, hbegun⟩ := h.placed i l hl (halike.cancelled ▸ hlive)
    refine ⟨hplaced.congr halike.peer halike.subgroup halike.group halike.object halike.pc ?_ ?_, ?_⟩
    · rw [Task.nextId, Task.nextId, halike.header]
    · rw [halike.header]
    · rw [Begun, halike.header, halike.group, hagrees.largest]
      exact hbegun

/-- A new task stands after everything that was written. -/
theorem Standing.spawnProducers (h : t.Standing cfg log) (p trackAlias skip : Nat) :
    (t.spawnProducers cfg p trackAlias skip).Standing cfg log where
  groups := h.groups
  placed i k hk hlive := by
    obtain ⟨hi, hlt, rfl⟩ | hk := spawnProducers_eq_some hk
    swap
    · exact h.placed i k hk hlive
    · refine ⟨?_, fun hheader => absurd hheader (by simp [spawned])⟩
      have hsubgroup : i - t.nextTask < cfg.width := by omega
      constructor
      case mode => trivial
      case header => exact fun hpc => absurd rfl hpc
      case subgroup => exact hsubgroup
      case slot => exact Nat.mod_eq_of_lt hsubgroup
      case fits => simp [spawned, Pc.objects]
      case sorted => simp [spawned, Pc.objects]
      case coded => exact Nat.zero_le _
      case marker => exact fun _ _ => Nat.zero_le _
      case past =>
        intro w hw _ _
        left
        obtain ⟨loc, hloc, hle⟩ := h.groups w hw
        rw [Option.mem_def] at hloc
        simp only [spawned, firstGroup, hloc, Option.elim_some]
        omega

theorem Standing.startGenerating (h : t.Standing cfg log) (p skip : Nat) :
    (t.startGenerating cfg p skip).Standing cfg log := by
  unfold Track.startGenerating
  simp only
  split
  · exact h
  · have hset : Agrees t (t.setSub p { t.subs p with generating := true }) :=
      Agrees.ofSubs rfl rfl rfl rfl rfl rfl
    exact (h.agrees hset).spawnProducers ..

theorem Located.agrees (h : t.Located cfg) (hagrees : Agrees t t') : t'.Located cfg where
  toStanding := by
    rw [hagrees.written]
    exact h.toStanding.agrees hagrees
  once := by
    rw [hagrees.written]
    exact h.once

theorem Located.startGenerating (h : t.Located cfg) (p skip : Nat) :
    (t.startGenerating cfg p skip).Located cfg := by
  have hwritten : (t.startGenerating cfg p skip).written = t.written :=
    (Still.startGenerating ..).written
  refine ⟨?_, ?_⟩
  · rw [hwritten]
    exact h.toStanding.startGenerating p skip
  · rw [hwritten]
    exact h.once

/-- The other tasks stand where they stood, and the one that ran has moved on. -/
theorem Standing.advance {o : Option Task} (h : t.Standing cfg log) (htasks : u.tasks = t.tasks)
    (hgrows : Grows t u) (hl : ∀ l, o = some l → l.Placed cfg log ∧ u.Begun l) :
    (u.setTask i o).Standing cfg log where
  groups w hw := by
    obtain ⟨loc, hloc, hle⟩ := h.groups w hw
    obtain ⟨loc', hloc', hle'⟩ := hgrows loc hloc
    exact ⟨loc', hloc', hle.trans hle'⟩
  placed j m hm hlive := by
    obtain ⟨-, heq⟩ | ⟨-, hm⟩ := Table.update_eq_some hm
    · exact hl m heq
    · rw [htasks] at hm
      obtain ⟨hplaced, hbegun⟩ := h.placed j m hm hlive
      exact ⟨hplaced, hbegun.grows hgrows⟩

theorem Located.advance {o : Option Task} (h : t.Located cfg) (htasks : u.tasks = t.tasks)
    (hwritten : u.written = t.written) (hgrows : Grows t u)
    (hl : ∀ l, o = some l → l.Placed cfg t.written ∧ u.Begun l) :
    (u.setTask i o).Located cfg where
  toStanding := by
    rw [setTask_written, hwritten]
    exact h.toStanding.advance htasks hgrows hl
  once := by
    rw [setTask_written, hwritten]
    exact h.once

/-- An object was handed over: no other task of its peer goes through its subgroup. -/
theorem Located.hand (h : t.Located cfg) (hrivals : Table.Pairs Rivals t.tasks)
    (hk : t.tasks i = some k) (hlive : k.cancelled = false) (htasks : u.tasks = t.tasks)
    {w : Written} (hgrows : Grows t u)
    (hhands : t.Hands cfg k u w) (hl : l.Placed cfg (t.written ++ [w]) ∧ u.Begun l) :
    (u.setTask i (some l)).Located cfg := by
  obtain ⟨hplaced, hbegun⟩ := h.placed i k hk hlive
  obtain ⟨hheader, obj, hslot, hbound, rfl, hwritten⟩ := hhands
  refine ⟨⟨?groups, ?placed⟩, ?once⟩
  case groups =>
    intro w hw
    have hw : w ∈ u.written := hw
    rw [hwritten] at hw
    obtain hw | hw := List.mem_append.mp hw
    · obtain ⟨loc, hloc, hle⟩ := h.groups w hw
      obtain ⟨loc', hloc', hle'⟩ := hgrows loc hloc
      exact ⟨loc', hloc', hle.trans hle'⟩
    · obtain rfl := List.mem_singleton.mp hw
      exact (hbegun.grows hgrows) hheader
  case once =>
    rw [setTask_written, hwritten, List.pairwise_append]
    refine ⟨h.once, List.pairwise_singleton .., ?_⟩
    intro w hw w' hw' ⟨hpeer, hgroup, hobject⟩
    obtain rfl := List.mem_singleton.mp hw'
    simp only at hpeer hgroup hobject
    have hpast := hplaced.past w hw hpeer (hobject ▸ hslot)
    omega
  case placed =>
    intro j m hm hmlive
    rw [setTask_written]
    obtain ⟨-, heq⟩ | ⟨hj, hm⟩ := Table.update_eq_some hm
    · obtain rfl := Option.some.inj heq
      rw [hwritten]
      exact hl
    · rw [htasks] at hm
      obtain ⟨hother, hbegun'⟩ := h.placed j m hm hmlive
      refine ⟨⟨hother.mode, hother.header, hother.subgroup, hother.slot, hother.fits,
        hother.sorted, hother.coded, hother.marker, ?_⟩, hbegun'.grows hgrows⟩
      intro w hw hp hs
      rw [hwritten] at hw
      obtain hw | hw := List.mem_append.mp hw
      · exact hother.past w hw hp hs
      · obtain rfl := List.mem_singleton.mp hw
        exact absurd (hslot.symm.trans hs) (hrivals i j k m hk hm hj.symm hlive hmlive hp)

theorem Located.runTask (htracked : t.Tracked cfg)
    (hrivals : Table.Pairs Rivals t.tasks) (h : t.Located cfg) (i : Nat) (stamp : Stamp) :
    (t.runTask cfg i stamp).Located cfg := by
  unfold Track.runTask
  split
  · exact h
  next k hk =>
      split
      · have hreset := Agrees.reset t k
        refine (h.agrees hreset).agrees
          ⟨⟨rfl, rfl, rfl, fun _ => Stream.Untouched.refl _⟩, rfl, ?_⟩
        intro j l hl hlive
        obtain ⟨-, heq⟩ | ⟨-, hl⟩ := Table.update_eq_some hl
        · simp at heq
        · exact ⟨l, hl, Task.Alike.refl l⟩
      next hlive =>
          have hlive : k.cancelled = false := by simpa using hlive
          have htask := htracked.each i k hk
          obtain ⟨hplaced, hbegun⟩ := h.placed i k hk hlive
          have hstretch : Stretch cfg (t.rollsTo cfg k) (t.Raises cfg k) (t, k)
              (t.resume cfg k stamp) :=
            resume_stretch (fun hd => (htask.datagram hd).1) htask.header stamp
          have hstays := resume_stays ⟨rfl, hplaced, hbegun⟩ htask.header stamp
          generalize t.resume cfg k stamp = outcome at hstretch hstays ⊢
          cases outcome with
          | awaits u l =>
              cases hstretch with
              | awaits moves =>
                  have htasks : u.tasks = t.tasks := Moves.tasks moves
                  have hgrows : Grows t u := Moves.grows moves
                  obtain hstays | ⟨_, _, _, heq, hstays, hhands⟩ := hstays
                  · refine h.advance htasks hstays.log hgrows ?_
                    intro m hm
                    obtain rfl := Option.some.inj hm
                    exact ⟨hstays.placed, hstays.begun⟩
                  · obtain ⟨rfl, rfl⟩ := Outcome.awaits.inj heq
                    exact h.hand hrivals hk hlive htasks hgrows hhands
                      ⟨hstays.placed, hstays.begun⟩
          | ends u =>
              have hlog : u.written = t.written := by
                obtain hstays | ⟨_, _, _, heq, -, -⟩ := hstays
                · exact hstays
                · simp at heq
              have hmoves : ∃ l, Relation.ReflTransGen (Move cfg (t.rollsTo cfg k)) (t, k) (u, l) := by
                cases hstretch with
                | ends moves left => exact ⟨_, moves⟩
                | raises moves because => exact ⟨_, moves⟩
              obtain ⟨l, moves⟩ := hmoves
              exact h.advance (Moves.tasks moves) hlog (Moves.grows moves) (by simp)

/-! ## Every run -/

theorem Standing.start (endsWithDone : Bool) :
    ({ subs := fun _ => { endsWithDone } } : Track).Standing cfg [] :=
  ⟨by simp, fun _ _ hk => by simp at hk⟩

/-- A task that runs, against an empty log. -/
theorem Standing.runTask (htracked : t.Tracked cfg) (h : t.Standing cfg []) (i : Nat)
    (stamp : Stamp) : (t.runTask cfg i stamp).Standing cfg [] := by
  unfold Track.runTask
  split
  · exact h
  next k hk =>
      split
      · refine (h.agrees (Agrees.reset t k)).advance rfl (Grows.of_eq rfl) ?_
        simp
      next hlive =>
          have htask := htracked.each i k hk
          obtain ⟨hplaced, hbegun⟩ := h.placed i k hk (by simpa using hlive)
          have hstretch : Stretch cfg (t.rollsTo cfg k) (t.Raises cfg k) (t, k)
              (t.resume cfg k stamp) :=
            resume_stretch (fun hd => (htask.datagram hd).1) htask.header stamp
          have hstays := resume_stays ⟨rfl, hplaced, hbegun⟩ htask.header stamp
          generalize t.resume cfg k stamp = outcome at hstretch hstays ⊢
          cases hstretch with
          | @awaits u l moves =>
              refine h.advance (Moves.tasks moves) (Moves.grows moves) ?_
              intro m hm
              obtain rfl := Option.some.inj hm
              obtain hstays | ⟨_, _, _, heq, hstays, -⟩ := hstays
              · exact ⟨hstays.placed, hstays.begun⟩
              · obtain ⟨rfl, rfl⟩ := Outcome.awaits.inj heq
                have hplaced := hstays.placed
                exact ⟨{ hplaced with past := by simp }, hstays.begun⟩
          | ends moves left => exact h.advance (Moves.tasks moves) (Moves.grows moves) (by simp)
          | raises moves because => exact h.advance (Moves.tasks moves) (Moves.grows moves) (by simp)

theorem Standing.step (htracked : t.Tracked cfg) (h : t.Standing cfg []) (a : Action) :
    (t.step cfg a).Standing cfg [] := by
  apply step_cases
  case peers => exact fun u hagrees => h.agrees hagrees
  case starts => exact fun u p skip hagrees => (h.agrees hagrees).startGenerating p skip
  case runs => exact fun i stamp _ => h.runTask htracked i stamp

end Track

end AioMoqt.Publisher
