import AioMoqt.Publisher.Proofs.Producers.Tracked

/-!
# What the peers do to the streams

SUBSCRIBEs, updates, cancellations and the end of the track keep who holds which stream.
-/

namespace AioMoqt.Publisher.Track

open AioMoqt.Lib AioMoqt.Messages

variable {cfg : Config} {t : Track} {p : Nat}

/-! ## Cuts -/

/-- A peer's event resets the stream of a task, which goes on. -/
theorem Tracked.cutTask (h : t.Tracked cfg) (p i : Nat) : (t.cutTask p i).Tracked cfg := by
  unfold Track.cutTask
  split
  · exact h
  next k hk =>
      have hat : (t.setTask i (some k)).Tracked cfg := by rwa [setTask_eq_self hk]
      split
      · split
        · exact hat.reset
        · exact h
      · exact h

theorem Tracked.cutStreams (h : t.Tracked cfg) (p : Nat) : (t.cutStreams p).Tracked cfg :=
  List.foldlRecOn _ _ h fun _ ht i _ => ht.cutTask p i

theorem Tracked.setSub (h : t.Tracked cfg) {sub : Subscription}
    (hclosed : sub.closed = (t.subs p).closed)
    (hopen : sub.openStreams = (t.subs p).openStreams) : (t.setSub p sub).Tracked cfg :=
  h.frame (Frame.setSub t p sub hclosed) rfl (setSub_openStreams hopen)

theorem Tracked.setForward (h : t.Tracked cfg) (p : Nat) (forward : Option Bool) :
    (t.setForward p forward).Tracked cfg := by
  cases forward with
  | none => exact h
  | some forward => exact Tracked.cutStreams (Tracked.setSub h (by rfl) (by rfl)) p

theorem cutTask_numSubs (t : Track) (p i : Nat) : (t.cutTask p i).numSubs = t.numSubs := by
  unfold Track.cutTask
  split
  · rfl
  · split
    · split
      · exact reset_numSubs ..
      · rfl
    · rfl

theorem cutStreams_numSubs (t : Track) (p : Nat) : (t.cutStreams p).numSubs = t.numSubs :=
  List.foldlRecOn (motive := fun u : Track => u.numSubs = t.numSubs) _ _ rfl
    fun _ hu i _ => (cutTask_numSubs _ p i).trans hu

theorem setForward_numSubs (t : Track) (p : Nat) (forward : Option Bool) :
    (t.setForward p forward).numSubs = t.numSubs := by
  cases forward with
  | none => rfl
  | some forward => exact cutStreams_numSubs ..

/-! ## Producers -/

/-- A task that was just spawned. -/
def spawned (t : Track) (p trackAlias skip i : Nat) : Task :=
  { run := t.nextTask, peer := p, trackAlias, subgroup := i - t.nextTask
    group := t.firstGroup skip, object := i - t.nextTask }

theorem spawnProducers_tasks (cfg : Config) (t : Track) (p trackAlias skip i : Nat) :
    (t.spawnProducers cfg p trackAlias skip).tasks i =
      if t.nextTask ≤ i ∧ i < t.nextTask + cfg.width then some (t.spawned p trackAlias skip i)
      else t.tasks i := rfl

/-- A task after a spawn is a new one, or it was there. -/
theorem spawnProducers_eq_some {trackAlias skip i : Nat} {k : Task}
    (hk : (t.spawnProducers cfg p trackAlias skip).tasks i = some k) :
    t.nextTask ≤ i ∧ i < t.nextTask + cfg.width ∧ k = t.spawned p trackAlias skip i ∨
      t.tasks i = some k := by
  rw [spawnProducers_tasks] at hk
  split at hk
  next hnew => exact Or.inl ⟨hnew.1, hnew.2, (Option.some.inj hk).symm⟩
  · exact Or.inr hk

theorem Tracked.spawnProducers (h : t.Tracked cfg) (hp : p < t.numSubs) (trackAlias skip : Nat) :
    (t.spawnProducers cfg p trackAlias skip).Tracked cfg where
  fresh i hi := by
    have hi : t.nextTask + cfg.width ≤ i := hi
    rw [spawnProducers_tasks, if_neg (by omega)]
    exact h.fresh i (by omega)
  placed := h.placed
  each i k hk := by
    obtain ⟨-, -, rfl⟩ | hold := spawnProducers_eq_some hk
    · constructor
      case seated => exact hp
      case header => exact fun hsome => absurd hsome (by simp [spawned])
      case opening => exact fun _ hpc => absurd hpc (by simp [spawned])
      case datagram => exact fun _ => ⟨rfl, fun _ => by simp [spawned]⟩
      case known => exact fun _ hsome => absurd hsome (by simp [spawned])
      case writes => exact fun _ hsome => absurd hsome (by simp [spawned, Pc.stream])
    · have hold := h.each i k hold
      exact ⟨hold.seated, hold.header, hold.opening, hold.datagram, hold.known, hold.writes⟩
  apart i j k l hk hl hne sid hsid := by
    obtain ⟨-, -, rfl⟩ | hk := spawnProducers_eq_some hk
    · simp [spawned] at hsid
    · obtain ⟨-, -, rfl⟩ | hl := spawnProducers_eq_some hl
      · simp [spawned]
      · exact h.apart i j k l hk hl hne sid hsid
  counted q := by
    refine le_trans (Table.count_mono ?_) (h.counted q)
    intro i k _ hk hholds
    obtain ⟨-, -, rfl⟩ | hold := spawnProducers_eq_some hk
    · simp [spawned, Task.holds] at hholds
    · refine ⟨?_, k, hold, hholds⟩
      by_contra hi
      rw [h.fresh i (Nat.not_lt.mp hi)] at hold
      simp at hold

theorem Tracked.startGenerating (h : t.Tracked cfg) (hp : p < t.numSubs) (skip : Nat) :
    (t.startGenerating cfg p skip).Tracked cfg := by
  unfold Track.startGenerating
  simp only
  split
  · exact h
  · exact Tracked.spawnProducers (Tracked.setSub h (by rfl) (by rfl)) hp _ _

/-- Every task is told to end. -/
def cancelAll (t : Track) : Track :=
  { t with tasks := fun i => (t.tasks i).map fun k => { k with cancelled := true } }

theorem cancelAll_eq_some {i : Nat} {k : Task} (hk : t.cancelAll.tasks i = some k) :
    ∃ l, t.tasks i = some l ∧ k = { l with cancelled := true } := by
  simp only [cancelAll, Option.map_eq_some_iff] at hk
  obtain ⟨l, hl, rfl⟩ := hk
  exact ⟨l, hl, rfl⟩

theorem stopProducing_eq (t : Track) (p : Nat) :
    t.stopProducing p =
      if ∃ q < t.numSubs, ((t.setSub p { t.subs p with generating := false }).subs q).generating then
        t.setSub p { t.subs p with generating := false }
      else (t.setSub p { t.subs p with generating := false }).cancelAll := rfl

theorem Tracked.cancelAll (h : t.Tracked cfg) : t.cancelAll.Tracked cfg where
  fresh i hi := by simp [Track.cancelAll, h.fresh i hi]
  placed := h.placed
  each i k hk := by
    obtain ⟨l, hl, rfl⟩ := cancelAll_eq_some hk
    have hold := h.each i l hl
    exact ⟨hold.seated, hold.header, hold.opening, hold.datagram, hold.known, hold.writes⟩
  apart i j k l hk hl hne sid hsid := by
    obtain ⟨k, hkey, rfl⟩ := cancelAll_eq_some hk
    obtain ⟨l, hother, rfl⟩ := cancelAll_eq_some hl
    exact h.apart i j k l hkey hother hne sid hsid
  counted q := by
    refine le_trans (Table.count_mono ?_) (h.counted q)
    intro i k hi hk hholds
    obtain ⟨l, hl, rfl⟩ := cancelAll_eq_some hk
    exact ⟨hi, l, hl, hholds⟩

theorem Tracked.stopProducing (h : t.Tracked cfg) (p : Nat) : (t.stopProducing p).Tracked cfg := by
  rw [stopProducing_eq]
  split
  · exact Tracked.setSub h rfl rfl
  · exact Tracked.cancelAll (Tracked.setSub h (by rfl) (by rfl))

/-! ## Events -/

theorem Tracked.startFill (h : t.Tracked cfg) (p request : Nat) (fill : Bool) :
    (t.startFill p request fill).Tracked cfg := by
  unfold Track.startFill
  simp only
  split
  · have hframe :=
      Frame.setSub t p { t.subs p with fillStreams := (t.subs p).fillStreams + 1 } rfl
    refine h.frame ⟨rfl, rfl, rfl, fun _ => rfl, fun _ h => h, hframe.closed⟩ rfl ?_
    exact setSub_openStreams rfl
  · exact h

theorem startFill_numSubs (t : Track) (p request : Nat) (fill : Bool) :
    (t.startFill p request fill).numSubs = t.numSubs := by
  unfold Track.startFill
  simp only
  split <;> rfl

theorem Tracked.onSubscribe (h : t.Tracked cfg) (hp : p < t.numSubs) (msg : Subscribe)
    (skip : Nat) : (t.onSubscribe cfg p msg skip).Tracked cfg := by
  unfold Track.onSubscribe
  simp only
  split
  · exact h
  · split
    · exact Tracked.setSub h rfl rfl
    · split
      · apply Tracked.startGenerating
        · exact Tracked.startFill (Tracked.setForward (Tracked.setSub h (by rfl) (by rfl)) _ _) _ _ _
        · rwa [startFill_numSubs, setForward_numSubs]
      · exact Tracked.startFill (Tracked.setForward (Tracked.setSub h (by rfl) (by rfl)) _ _) _ _ _

theorem Tracked.filtered (h : t.Tracked cfg) (p : Nat)
    (range : Option (Location × Option Nat × Option Nat)) :
    (t.filtered p range).Tracked cfg := by
  unfold Track.filtered
  split
  · exact h
  · exact h.cutStreams p
  · exact h.cutStreams p
  · exact Tracked.cutStreams (Tracked.setSub h (by rfl) (by rfl)) p

theorem filtered_numSubs (t : Track) (p : Nat)
    (range : Option (Location × Option Nat × Option Nat)) :
    (t.filtered p range).numSubs = t.numSubs := by
  unfold Track.filtered
  split
  · rfl
  all_goals exact cutStreams_numSubs ..

theorem Tracked.onRequestUpdate (h : t.Tracked cfg) (hp : p < t.numSubs) (request : Nat)
    (forward : Option Bool) (range : Option (Location × Option Nat × Option Nat)) (fill : Bool)
    (skip : Nat) : (t.onRequestUpdate cfg p request forward range fill skip).Tracked cfg := by
  unfold Track.onRequestUpdate
  simp only
  split
  · have hforwarded := Tracked.startFill (Tracked.setForward (h.filtered p range) p forward) p
      request fill
    split
    · refine hforwarded.startGenerating ?_ skip
      rwa [startFill_numSubs, setForward_numSubs, filtered_numSubs]
    · exact hforwarded
  · exact h

theorem Tracked.endSubscription (h : t.Tracked cfg) (p : Nat) :
    (t.endSubscription p).Tracked cfg := by
  unfold Track.endSubscription
  split
  · have hended : (t.setSub p ((t.subs p).ended .trackEnded)).Tracked cfg := Tracked.setSub h rfl rfl
    apply Tracked.finishRange
    rw [setSub_subs_self]
    exact hended.stopProducing p
  · exact h

theorem Tracked.endTrack (h : t.Tracked cfg) : t.endTrack.Tracked cfg :=
  List.foldlRecOn _ _ h fun _ ht p _ => ht.endSubscription p

/-- What a peer's requests are once one of them is gone, with its fills. -/
def left (t : Track) (p request : Nat) : Track :=
  { t.setSub p { t.subs p with requests := (t.subs p).requests.filter (·.1 ≠ request) } with
    fills := t.fills.filter (·.1 ≠ p) }

theorem onRequestCancelled_eq (t : Track) (p request : Nat) :
    t.onRequestCancelled p request =
      if ((t.left p request).subs p).requests = [] then (t.left p request).stopProducing p
      else t.left p request := rfl

theorem Tracked.left (h : t.Tracked cfg) (p request : Nat) : (t.left p request).Tracked cfg := by
  have hframe := Frame.setSub t p
    { t.subs p with requests := (t.subs p).requests.filter (·.1 ≠ request) } rfl
  refine h.frame ⟨rfl, rfl, rfl, fun _ => rfl, fun _ h => h, hframe.closed⟩ rfl ?_
  exact setSub_openStreams rfl

theorem Tracked.onRequestCancelled (h : t.Tracked cfg) (p request : Nat) :
    (t.onRequestCancelled p request).Tracked cfg := by
  rw [onRequestCancelled_eq]
  split
  · exact (h.left p request).stopProducing p
  · exact h.left p request

theorem Tracked.stopSending (h : t.Tracked cfg) (sid : Nat) : (t.stopSending sid).Tracked cfg :=
  h.frame (Frame.closeStream t sid [] (by simp)) (closeStream_tasks ..) fun p => by
    rw [Track.stopSending, closeStream_subs]

theorem Frame.closeSession (t : Track) (p : Nat) : Frame t (t.closeSession p) where
  nextTask := rfl
  nextStream := rfl
  numSubs := rfl
  peer sid := by
    simp only [Track.closeSession]
    split <;> rfl
  state sid hopen := by
    simp only [Track.closeSession] at hopen
    split at hopen
    · simp at hopen
    · exact hopen
  closed q hq := by
    by_cases hqp : q = p
    · subst hqp
      simp [Track.closeSession] at hq
    · rwa [show (t.closeSession p).subs q = t.subs q from setSub_of_ne _ _ hqp] at hq

theorem Tracked.closeSession (h : t.Tracked cfg) (p : Nat) : (t.closeSession p).Tracked cfg :=
  h.frame (Frame.closeSession t p) rfl (setSub_openStreams rfl)

/-- A session that is added takes a place that nothing refers to yet. -/
theorem Tracked.addSession (h : t.Tracked cfg) (endsWithDone : Bool) :
    { t.setSub t.numSubs { endsWithDone } with numSubs := t.numSubs + 1 }.Tracked cfg where
  __ := h
  placed sid hsid := Nat.lt_succ_of_lt (h.placed sid hsid)
  each i k hk := by
    have hold := h.each i k hk
    have hne : k.peer ≠ t.numSubs := Nat.ne_of_lt hold.seated
    refine ⟨Nat.lt_succ_of_lt hold.seated, hold.header, hold.opening, hold.datagram, hold.known, ?_⟩
    intro sid hsid
    have hwrites := hold.writes sid hsid
    rwa [← setSub_of_ne t { endsWithDone } hne] at hwrites
  counted q := by
    by_cases hq : q = t.numSubs
    · have hzero : Table.count (·.holds q) t.nextTask t.tasks = 0 := by
        apply Table.count_eq_zero
        intro i k hk
        have hne : k.peer ≠ q := hq ▸ Nat.ne_of_lt (h.each i k hk).seated
        simp [Task.holds, hne]
      exact hzero.le.trans (Nat.zero_le _)
    · have hcount := h.counted q
      rwa [← setSub_of_ne t { endsWithDone } hq] at hcount

/-- Every step keeps what holds of the streams. -/
theorem Tracked.step (h : t.Tracked cfg) (a : Action) : (t.step cfg a).Tracked cfg := by
  cases a with
  | addSession endsWithDone => exact h.addSession endsWithDone
  | subscribe p msg skip =>
      simp only [Track.step]
      split
      next hp => exact h.onSubscribe hp msg skip
      · exact h
  | update p request forward range fill skip =>
      simp only [Track.step]
      split
      next hp => exact h.onRequestUpdate hp request forward range fill skip
      · exact h
  | openFill p request =>
      simp only [Track.step, Track.openFill]
      split
      · refine h.frame ?_ rfl fun _ => rfl
        exact ⟨rfl, rfl, rfl, fun _ => rfl, fun _ h => h, fun _ h => h⟩
      · exact h
  | cancel p request =>
      simp only [Track.step]
      split
      · exact h.onRequestCancelled p request
      · exact h
  | run i stamp => exact h.runTask i stamp
  | stopSending sid =>
      simp only [Track.step]
      split
      · exact h.stopSending sid
      · exact h
  | closeSession p =>
      simp only [Track.step]
      split
      · exact h.closeSession p
      · exact h
  | endTrack => exact h.endTrack

theorem Tracked.start (endsWithDone : Bool) :
    ({ subs := fun _ => { endsWithDone } } : Track).Tracked cfg where
  fresh _ _ := rfl
  placed _ h := absurd h (Nat.not_lt_zero _)
  each _ _ h := by simp at h
  apart _ _ _ _ h := by simp at h
  counted _ := by simp [Table.count]

/-- What holds of the streams holds in every run. -/
theorem tracked_of_reached {cond : Track → Action → Prop} (run : Reached cfg cond t) :
    t.Tracked cfg := by
  induction run with
  | start endsWithDone => exact Tracked.start endsWithDone
  | step run a clear ih => exact ih.step a

end AioMoqt.Publisher.Track
