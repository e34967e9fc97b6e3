import AioMoqt.Publisher.Proofs.Producers.Peers

/-!
# Tasks that serve a subscription

While the peers and the tasks keep to an order, every open stream has a task, a peer has
one task a subgroup, and each works for a live request of its peer: a subscription ends
only when nothing more comes of its tasks.
-/

namespace AioMoqt.Publisher

open AioMoqt.Lib

/-- The window has not become a mark. -/
def Window.IsRange : Window → Prop
  | .range _ _ _ => True
  | _ => False

theorem Subscription.isRange_of_passes {sub : Subscription} {group object : Nat}
    (h : sub.passes group object = true) : sub.window.IsRange := by
  unfold Subscription.passes at h
  cases hwindow : sub.window with
  | range => trivial
  | ended => simp [hwindow] at h
  | done => simp [hwindow] at h

/-- The window of a subscription stays, or it becomes a mark. -/
structure Subscription.Marks (sub sub' : Subscription) : Prop where
  endsWithDone : sub'.endsWithDone = sub.endsWithDone
  window : sub'.window.IsRange → sub'.window = sub.window

theorem Subscription.Marks.refl (sub : Subscription) : sub.Marks sub := ⟨rfl, fun _ => rfl⟩

theorem Subscription.Marks.trans {sub sub' sub'' : Subscription} (h : sub.Marks sub')
    (h' : sub'.Marks sub'') : sub.Marks sub'' := by
  refine ⟨h'.endsWithDone.trans h.endsWithDone, fun hrange => ?_⟩
  have hwindow := h'.window hrange
  rw [hwindow] at hrange ⊢
  exact h.window hrange

namespace Track

open Subscription (Marks)

/-- Two tasks that are not cancelled serve different peers or different subgroups. -/
def Rivals (k l : Task) : Prop :=
  k.cancelled = false → l.cancelled = false → k.peer = l.peer → k.subgroup ≠ l.subgroup

/-- A task that is not cancelled works for a live request; past PUBLISH_DONE it has
nothing open, and from the End Group on it begins nothing. -/
structure Serves (t : Track) (k : Task) : Prop where
  alive : k.cancelled = false → k.trackAlias ∈ (t.subs k.peer).aliases ∨
    (t.subs k.peer).window = .done ∧ (t.subs k.peer).requests = [] ∧ k.stream = none ∧
      ¬ k.pc.Begins
  ended : k.cancelled = false → (t.subs k.peer).window = .ended → ¬ k.pc.Begins

/-- What holds of the tasks while the steps are in order. -/
structure Ordered (t : Track) : Prop where
  owned : ∀ sid < t.nextStream, (t.streams sid).state = .opened →
    (t.subs (t.streams sid).peer).closed = false →
      ∃ i k, t.tasks i = some k ∧ k.stream = some sid
  rivals : Table.Pairs Rivals t.tasks
  serves : Table.Each t.Serves t.tasks

/-! ## Steps that touch no task -/

/-- The subscriptions stand as they did. -/
def Stands (t t' : Track) : Prop :=
  ∀ p, (t'.subs p).requests = (t.subs p).requests ∧ (t'.subs p).window = (t.subs p).window

theorem Serves.stands {t t' : Track} {k : Task} (h : t.Serves k) (hs : Stands t t') :
    t'.Serves k := by
  obtain ⟨hrequests, hwindow⟩ := hs k.peer
  constructor
  · rw [Subscription.aliases, hrequests, hwindow]
    exact h.alive
  · rw [hwindow]
    exact h.ended

theorem Serves.congr {t t' : Track} {k : Task} (h : t.Serves k)
    (hsub : t'.subs k.peer = t.subs k.peer) : t'.Serves k := by
  constructor
  · rw [hsub]
    exact h.alive
  · rw [hsub]
    exact h.ended

/-- The subscriptions change, and the tasks still serve them. -/
theorem Ordered.reframe {t t' : Track} (h : t.Ordered) (f : Frame t t')
    (hserves : ∀ i k, t.tasks i = some k → t.Serves k → t'.Serves k)
    (htasks : t'.tasks = t.tasks) : t'.Ordered where
  owned sid hsid hopen hclosed := by
    rw [htasks]
    rw [f.peer] at hclosed
    exact h.owned sid (by rwa [f.nextStream] at hsid) (f.state sid hopen) (f.closed _ hclosed)
  rivals := by
    rw [htasks]
    exact h.rivals
  serves := by
    rw [htasks]
    exact fun i k hk => hserves i k hk (h.serves i k hk)

theorem Ordered.frame {t t' : Track} (h : t.Ordered) (f : Frame t t') (hs : Stands t t')
    (htasks : t'.tasks = t.tasks) : t'.Ordered :=
  h.reframe f (fun _ _ _ hk => hk.stands hs) htasks

/-- The subscription of one peer changes. -/
theorem Ordered.setSub {t : Track} {p : Nat} {sub : Subscription} (h : t.Ordered)
    (hclosed : sub.closed = (t.subs p).closed)
    (hserves : ∀ i k, t.tasks i = some k → k.peer = p → t.Serves k → (t.setSub p sub).Serves k) :
    (t.setSub p sub).Ordered := by
  refine h.reframe (Frame.setSub t p sub hclosed) ?_ rfl
  intro i k hk hold
  by_cases hp : k.peer = p
  · exact hserves i k hk hp hold
  · exact hold.congr (setSub_of_ne t sub hp)

/-! ## Steps of one task -/

section OneTask

variable {cfg : Config} {t : Track} {i : Nat} {k k' : Task}

theorem Ordered.inHand (h : (t.setTask i (some k)).Ordered) : t.Serves k :=
  h.serves.inHand.stands fun _ => ⟨rfl, rfl⟩

theorem Ordered.rivals_exchange (h : (t.setTask i (some k)).Ordered) (hsame : k.Same k') :
    Table.Pairs Rivals (t.setTask i (some k')).tasks := by
  apply h.rivals.exchange
  · intro j l _ _ hl
    rw [Rivals, hsame.cancelled, hsame.peer, hsame.subgroup]
    exact hl
  · intro j l _ _ hl
    rw [Rivals, hsame.cancelled, hsame.peer, hsame.subgroup]
    exact hl

theorem Ordered.serves_exchange {t' : Track} (h : (t.setTask i (some k)).Ordered)
    (hs : Stands t t') (hk : t'.Serves k') (htasks : t'.tasks = t.tasks) :
    Table.Each (t'.setTask i (some k')).Serves (t'.setTask i (some k')).tasks := by
  have hold : Table.Each (t'.setTask i (some k')).Serves
      (Function.update t.tasks i (some k)) :=
    h.serves.mono fun _ hl => hl.stands hs
  show Table.Each _ (Function.update t'.tasks i (some k'))
  rw [htasks]
  exact hold.exchange (hk.stands fun _ => ⟨rfl, rfl⟩)

/-- A task other than the one in hand. -/
theorem owner_of_ne {j : Nat} {l : Task} (hl : (t.setTask i (some k)).tasks j = some l)
    (hj : j ≠ i) (o : Option Task) : (t.setTask i o).tasks j = some l := by
  rw [setTask_of_ne _ _ hj] at hl ⊢
  exact hl

theorem Ordered.adjust (h : (t.setTask i (some k)).Ordered) (ha : k.Adjusts cfg t k') :
    (t.setTask i (some k')).Ordered where
  owned sid hsid hopen hclosed := by
    obtain ⟨j, l, hl, hheld⟩ := h.owned sid hsid hopen hclosed
    by_cases hj : j = i
    · subst hj
      rw [setTask_self] at hl
      obtain rfl := Option.some.inj hl
      exact ⟨j, k', setTask_self .., ha.stream.trans hheld⟩
    · exact ⟨j, l, owner_of_ne hl hj _, hheld⟩
  rivals := h.rivals_exchange ha.same
  serves := by
    have hk := h.inHand
    refine h.serves_exchange (fun _ => ⟨rfl, rfl⟩) ⟨?_, ?_⟩ rfl
    · rw [ha.same.cancelled, ha.same.trackAlias, ha.same.peer, ha.stream]
      intro hlive
      obtain halias | ⟨hdone, hempty, hstream, -⟩ := hk.alive hlive
      · exact Or.inl halias
      · refine Or.inr ⟨hdone, hempty, hstream, fun hbegins => ?_⟩
        obtain ⟨group, object, hpass⟩ := ha.begins hbegins
        have hrange := Subscription.isRange_of_passes hpass
        rw [hdone] at hrange
        exact hrange
    · rw [ha.same.peer]
      intro _ hended hbegins
      obtain ⟨group, object, hpass⟩ := ha.begins hbegins
      have hrange := Subscription.isRange_of_passes hpass
      rw [hended] at hrange
      exact hrange

theorem Ordered.frameAt {t' : Track} (h : (t.setTask i (some k)).Ordered) (f : Frame t t')
    (hs : Stands t t') (htasks : t'.tasks = t.tasks) : (t'.setTask i (some k)).Ordered := by
  refine h.frame ⟨f.nextTask, f.nextStream, f.numSubs, f.peer, f.state, f.closed⟩ hs ?_
  rw [setTask, setTask, htasks]

/-- A task ends with no stream open. -/
theorem Ordered.finish (h : (t.setTask i (some k)).Ordered) (hstream : k.stream = none) :
    (t.setTask i none).Ordered where
  owned sid hsid hopen hclosed := by
    obtain ⟨j, l, hl, hheld⟩ := h.owned sid hsid hopen hclosed
    have hj : j ≠ i := by
      rintro rfl
      rw [setTask_self] at hl
      obtain rfl := Option.some.inj hl
      simp [hstream] at hheld
    exact ⟨j, l, owner_of_ne hl hj _, hheld⟩
  rivals := h.rivals.drop
  serves := h.serves.drop.mono fun _ hl => hl.stands fun _ => ⟨rfl, rfl⟩

theorem stands_setSub {t : Track} {p : Nat} {sub : Subscription}
    (hrequests : sub.requests = (t.subs p).requests) (hwindow : sub.window = (t.subs p).window) :
    Stands t (t.setSub p sub) := by
  intro q
  by_cases hq : q = p
  · subst hq
    rw [setSub_self]
    exact ⟨hrequests, hwindow⟩
  · rw [setSub_of_ne _ _ hq]
    exact ⟨rfl, rfl⟩

/-- A task lets go of its stream, which is closed. -/
theorem Ordered.release {sid : Nat} (h : (t.setTask i (some k)).Ordered)
    (hheld : k.stream = some sid)
    (hshut : (t.streams sid).state = .opened →
      (t.subs (t.streams sid).peer).closed = true)
    (hsame : k.Same k') (hstream : k'.stream = none) (hpc : k'.pc = k.pc) :
    ((t.setSub k.peer (t.subs k.peer).streamClosed).setTask i (some k')).Ordered where
  owned other hother hopen hclosed := by
    have hframe : Frame t (t.setSub k.peer (t.subs k.peer).streamClosed) :=
      Frame.setSub t _ _ rfl
    obtain ⟨j, l, hl, hholds⟩ := h.owned other hother hopen (hframe.closed _ hclosed)
    have hj : j ≠ i := by
      rintro rfl
      rw [setTask_self] at hl
      obtain rfl := Option.some.inj hl
      obtain rfl : sid = other := Option.some.inj (hheld.symm.trans hholds)
      have hsession : (t.subs (t.streams sid).peer).closed = false := hframe.closed _ hclosed
      exact absurd (hshut hopen) (by simp [hsession])
    exact ⟨j, l, owner_of_ne (t := t.setSub _ _) (k := k) hl hj _, hholds⟩
  rivals := h.rivals_exchange hsame
  serves := by
    have hk := h.inHand
    have hs : Stands t (t.setSub k.peer (t.subs k.peer).streamClosed) := stands_setSub rfl rfl
    refine h.serves_exchange hs (Serves.stands ⟨?_, ?_⟩ hs) rfl
    · rw [hsame.cancelled, hsame.trackAlias, hsame.peer, hpc]
      intro hlive
      obtain halias | ⟨hdone, hempty, -, hidle⟩ := hk.alive hlive
      · exact Or.inl halias
      · exact Or.inr ⟨hdone, hempty, hstream, hidle⟩
    · rw [hsame.cancelled, hsame.peer, hpc]
      exact hk.ended

theorem Tracked.stream_eq_none {p : Nat} (h : t.Tracked cfg) (hzero : (t.subs p).openStreams = 0)
    (hk : t.tasks i = some k) (hp : k.peer = p) : k.stream = none := by
  have hcount : Table.count (·.holds p) t.nextTask t.tasks = 0 :=
    Nat.le_zero.mp (hzero ▸ h.counted p)
  have hi : i < t.nextTask := by
    by_contra hi
    rw [h.fresh i (Nat.not_lt.mp hi)] at hk
    simp at hk
  have hnot := Table.not_of_count_eq_zero hcount hi hk
  simpa [Task.holds, hp] using hnot

/-- A subscription that ends takes with it no task that holds a stream or begins one. -/
theorem Ordered.finishRange {p : Nat} {sub : Subscription} (htracked : (t.setSub p sub).Tracked cfg)
    (h : (t.setSub p sub).Ordered) : (t.finishRange p sub).Ordered := by
  have hdones : (t.setSub p sub.finishRange).Ordered → (t.finishRange p sub).Ordered :=
    fun hset => hset.frame ⟨rfl, rfl, rfl, fun _ => rfl, fun _ h => h, fun _ h => h⟩
      (fun _ => ⟨rfl, rfl⟩) rfl
  apply hdones
  by_cases hdrained : sub.drained = true
  · simp only [Subscription.drained, Bool.and_eq_true, decide_eq_true_eq] at hdrained
    have hsub : (t.setSub p sub.finishRange) = (t.setSub p sub).setSub p sub.finishRange := by
      rw [Track.setSub, Track.setSub, Track.setSub, Function.update_idem]
    rw [hsub]
    refine h.setSub (by rw [finishRange_closed, setSub_self]) ?_
    intro i k hk hp hold
    have hstream := htracked.stream_eq_none (by rw [setSub_self]; exact hdrained.2) hk hp
    have hwindow : sub.finishRange.window = .done ∧ sub.finishRange.requests = [] := by
      simp [Subscription.finishRange, Subscription.drained, hdrained.1, hdrained.2]
    constructor
    · intro hlive
      have hidle := hold.ended hlive (by rw [hp, setSub_self]; exact hdrained.1)
      rw [hp, setSub_self]
      exact Or.inr ⟨hwindow.1, hwindow.2, hstream, hidle⟩
    · intro _ hended
      rw [hp, setSub_self, hwindow.1] at hended
      simp at hended
  · rwa [show sub.finishRange = sub from if_neg hdrained]

theorem Ordered.finishRangeAt {p : Nat} {sub : Subscription}
    (htracked : ((t.setSub p sub).setTask i (some k)).Tracked cfg)
    (h : ((t.setSub p sub).setTask i (some k)).Ordered) :
    ((t.finishRange p sub).setTask i (some k)).Ordered :=
  Ordered.finishRange (t := t.setTask i (some k)) htracked h

/-- A task closes its stream. -/
theorem Ordered.close {sid : Nat} (htracked : (t.setTask i (some k)).Tracked cfg)
    (h : (t.setTask i (some k)).Ordered) (hheld : k.stream = some sid)
    (hshut : (t.streams sid).state = .opened → (t.subs k.peer).closed = true)
    (hsame : k.Same k') (hstream : k'.stream = none) (hpc : k'.pc = k.pc) :
    ((t.streamClosed k.peer).setTask i (some k')).Ordered := by
  apply Ordered.finishRangeAt (htracked.release hheld hshut hsame hstream hpc)
  refine h.release hheld ?_ hsame hstream hpc
  rw [(htracked.inHand.known sid hheld).2]
  exact hshut

theorem Ordered.closeStream {sid : Nat} (htracked : (t.setTask i (some k)).Tracked cfg)
    (h : (t.setTask i (some k)).Ordered) (hheld : k.stream = some sid) (items : List Item)
    {state : StreamState} (hstate : state ≠ .opened) (hsame : k.Same k')
    (hstream : k'.stream = none) (hpc : k'.pc = k.pc) :
    (((t.closeStream sid items state).streamClosed k.peer).setTask i (some k')).Ordered := by
  have hframe := Frame.closeStream t sid items hstate
  have hsubs := closeStream_subs t sid items state
  have htasks := closeStream_tasks t sid items state
  refine Ordered.close (htracked.frameAt hframe htasks fun p => by rw [hsubs])
    (h.frameAt hframe (fun p => by rw [hsubs]; exact ⟨rfl, rfl⟩) htasks) hheld ?_ hsame hstream hpc
  exact fun hopen => absurd hopen (closeStream_shut t sid items hstate)

theorem Ordered.reset (htracked : (t.setTask i (some k)).Tracked cfg)
    (h : (t.setTask i (some k)).Ordered) :
    ((t.reset k).1.setTask i (some (t.reset k).2)).Ordered := by
  unfold Track.reset
  split
  · exact h
  next sid hheld =>
      simp only
      split
      next hclosed =>
          exact Ordered.close htracked h hheld (fun _ => hclosed) ⟨rfl, rfl, rfl, rfl, rfl⟩ rfl rfl
      · exact Ordered.closeStream htracked h hheld [] (by simp) ⟨rfl, rfl, rfl, rfl, rfl⟩ rfl rfl

theorem Ordered.stop {sid : Nat} (htracked : (t.setTask i (some k)).Tracked cfg)
    (h : (t.setTask i (some k)).Ordered) (hpc : k.pc.stream = some sid)
    (hshut : (t.streams sid).state ≠ .opened) :
    ((t.stop k).1.setTask i (some (t.stop k).2)).Ordered := by
  unfold Track.stop
  split
  next hnone => exact h.adjust (Task.adjusts_stopped htracked.inHand hpc)
  next held hheld =>
      refine Ordered.close htracked h hheld (fun hopen => ?_) ⟨rfl, rfl, rfl, rfl, rfl⟩ rfl rfl
      rw [htracked.inHand.held_eq hpc hheld] at hopen
      exact absurd hopen hshut

theorem Ordered.opens {obj : Generated} (h : (t.setTask i (some k)).Ordered)
    (hpc : k.pc = .opening obj) (hnone : k.stream = none) (hsame : k.Same k')
    (hstream : k'.stream = some t.nextStream) (hpc' : k'.pc = .header t.nextStream obj false) :
    ((t.openStream k).setTask i (some k')).Ordered where
  owned sid hsid hopen hclosed := by
    have hlt : sid < t.nextStream + 1 := hsid
    obtain hlt | rfl := Nat.lt_succ_iff_lt_or_eq.mp hlt
    · rw [setTask_streams, openStream_streams t k hlt] at hopen hclosed
      rw [setTask_subs, openStream_subs] at hclosed
      obtain ⟨j, l, hl, hheld⟩ := h.owned sid hlt hopen hclosed
      have hj : j ≠ i := by
        rintro rfl
        rw [setTask_self] at hl
        obtain rfl := Option.some.inj hl
        simp [hnone] at hheld
      exact ⟨j, l, owner_of_ne (t := t.openStream k) (k := k) hl hj _, hheld⟩
    · exact ⟨i, k', setTask_self .., hstream⟩
  rivals := h.rivals_exchange hsame
  serves := by
    have hk := h.inHand
    have hs : Stands t (t.openStream k) := fun p => by
      rw [openStream_subs]
      exact ⟨rfl, rfl⟩
    refine h.serves_exchange hs (Serves.stands ⟨?_, ?_⟩ hs) rfl
    · rw [hsame.cancelled, hsame.trackAlias, hsame.peer]
      intro hlive
      obtain halias | ⟨-, -, -, hidle⟩ := hk.alive hlive
      · exact Or.inl halias
      · exact absurd (by rw [hpc]; trivial) hidle
    · rw [hpc']
      exact fun _ _ hbegins => hbegins

/-- The range of a peer ends while no task of it begins anything. -/
theorem Ordered.rangeEnded {p : Nat} (htracked : (t.setTask i (some k)).Tracked cfg)
    (h : (t.setTask i (some k)).Ordered)
    (hidle : (t.subs p).endsWithDone = true → (t.subs p).window.IsRange →
      ∀ j l, (t.setTask i (some k)).tasks j = some l → l.cancelled = false → l.peer = p →
        ¬ l.pc.Begins) :
    ((t.rangeEnded p).setTask i (some k)).Ordered := by
  unfold Track.rangeEnded
  simp only
  split
  next hends =>
      split
      next start endGroup endObject hwindow =>
          have hrange : (t.subs p).window.IsRange := by
            rw [hwindow]
            trivial
          have hmarked : ((t.setSub p ((t.subs p).ended .subscriptionEnded)).setTask i
              (some k)).Ordered := by
            refine Ordered.setSub (t := t.setTask i (some k)) h rfl ?_
            intro j l hl hp hold
            constructor
            · intro hlive
              rw [hp, setSub_self]
              obtain halias | ⟨hdone, -, -, -⟩ := hold.alive hlive
              · rw [hp] at halias
                exact Or.inl halias
              · have hdone : (t.subs p).window = .done := hp ▸ hdone
                rw [hwindow] at hdone
                simp at hdone
            · exact fun hlive _ => hidle hends hrange j l hl hlive hp
          have hended : ((t.setSub p ((t.subs p).ended .subscriptionEnded)).setTask i
              (some k)).Tracked cfg :=
            htracked.frameAt (Frame.setSub t _ _ rfl) rfl (setSub_openStreams rfl)
          exact Ordered.finishRangeAt hended hmarked
      · exact h
  · exact h.frameAt (Frame.setSub t _ _ rfl) (stands_setSub rfl rfl) rfl

/-! ## Moves -/

/-- Should the stretch end the range of its peer, no other task of it begins anything. -/
def Heeds (roll : Option Nat) (i : Nat) (t : Track) (k : Task) : Prop :=
  ∀ group, roll = some group → (t.subs k.peer).endsWithDone = true →
    (t.subs k.peer).window.IsRange → (t.subs k.peer).pastEnd group = true →
      ∀ j l, t.tasks j = some l → j ≠ i → l.cancelled = false → l.peer = k.peer → ¬ l.pc.Begins

theorem finishRange_endsWithDone (sub : Subscription) :
    sub.finishRange.endsWithDone = sub.endsWithDone := by
  unfold Subscription.finishRange
  split <;> rfl

theorem Marks.finishRange (sub : Subscription) : Marks sub sub.finishRange := by
  refine ⟨finishRange_endsWithDone sub, fun hrange => ?_⟩
  unfold Subscription.finishRange at hrange ⊢
  split at hrange
  · exact hrange.elim
  next hdrained => rw [if_neg hdrained]

theorem Marks.setSub {p : Nat} {sub : Subscription} (h : Marks (t.subs p) sub) (q : Nat) :
    Marks (t.subs q) ((t.setSub p sub).subs q) := by
  by_cases hq : q = p
  · subst hq
    rwa [setSub_self]
  · rw [setSub_of_ne _ _ hq]
    exact Marks.refl _

theorem Marks.streamClosed (t : Track) (p q : Nat) :
    Marks (t.subs q) ((t.streamClosed p).subs q) := by
  have hclosed : Marks (t.subs p) (t.subs p).streamClosed := ⟨rfl, fun _ => rfl⟩
  exact Marks.setSub (hclosed.trans (Marks.finishRange _)) q

theorem Marks.closeStream (t : Track) (sid : Nat) (items : List Item) (state : StreamState)
    (p q : Nat) :
    Marks (t.subs q) (((t.closeStream sid items state).streamClosed p).subs q) := by
  have hclosed := Marks.streamClosed (t.closeStream sid items state) p q
  rwa [closeStream_subs] at hclosed

theorem Marks.rangeEnded (t : Track) (p q : Nat) :
    Marks (t.subs q) ((t.rangeEnded p).subs q) := by
  unfold Track.rangeEnded
  simp only
  split
  · split
    · have hended : Marks (t.subs p) ((t.subs p).ended .subscriptionEnded) :=
        ⟨rfl, fun h => h.elim⟩
      exact Marks.setSub (hended.trans (Marks.finishRange _)) q
    · exact Marks.refl _
  · refine Marks.setSub ?_ q
    exact ⟨rfl, fun _ => rfl⟩

/-- A move leaves the windows or marks them. -/
theorem Move.marks {roll : Option Nat} {s s' : Track × Task} (m : Move cfg roll s s') (p : Nat) :
    Marks (s.1.subs p) (s'.1.subs p) := by
  cases m with
  | reset =>
      simp only [Track.reset]
      split
      · exact Marks.refl _
      · simp only
        split
        · exact Marks.streamClosed ..
        · exact Marks.closeStream ..
  | stop =>
      simp only [Track.stop]
      split
      · exact Marks.refl _
      · exact Marks.streamClosed ..
  | fin => exact Marks.closeStream ..
  | opens obj waiting =>
      simp only
      rw [openStream_subs]
      exact ⟨rfl, fun _ => rfl⟩
  | rangeEnded => exact Marks.rangeEnded ..
  | _ => exact Marks.refl _

theorem Move.same {roll : Option Nat} {s s' : Track × Task} (m : Move cfg roll s s') :
    s.2.Same s'.2 := by
  cases m with
  | adjust ha => exact ha.same
  | reset =>
      simp only [Track.reset]
      split <;> exact ⟨rfl, rfl, rfl, rfl, rfl⟩
  | stop =>
      simp only [Track.stop]
      split <;> exact ⟨rfl, rfl, rfl, rfl, rfl⟩
  | _ => exact ⟨rfl, rfl, rfl, rfl, rfl⟩

theorem Heeds.move {roll : Option Nat} {s s' : Track × Task} (m : Move cfg roll s s')
    (h : Heeds roll i s.1 s.2) : Heeds roll i s'.1 s'.2 := by
  intro group hroll hends hrange hpast
  rw [m.same.peer] at hends hrange hpast
  have hmarks := m.marks s.2.peer
  have hwindow := hmarks.window hrange
  rw [m.tasks, m.same.peer]
  refine h group hroll (by rwa [hmarks.endsWithDone] at hends) (by rwa [hwindow] at hrange) ?_
  rwa [Subscription.pastEnd, hwindow] at hpast

/-- A move keeps the order. -/
theorem Ordered.move {roll : Option Nat} {s s' : Track × Task} (m : Move cfg roll s s')
    (htracked : (s.1.setTask i (some s.2)).Tracked cfg) (h : (s.1.setTask i (some s.2)).Ordered)
    (hheeds : Heeds roll i s.1 s.2) : (s'.1.setTask i (some s'.2)).Ordered := by
  cases m with
  | adjust ha => exact h.adjust ha
  | note stamp =>
      refine h.frameAt ?_ (fun _ => ⟨rfl, rfl⟩) rfl
      exact ⟨rfl, rfl, rfl, fun _ => rfl, fun _ h => h, fun _ h => h⟩
  | first sid n held => exact h.frameAt (Frame.setStream _ rfl id) (fun _ => ⟨rfl, rfl⟩) rfl
  | reset => exact Ordered.reset htracked h
  | stop sid writing shut session => exact Ordered.stop htracked h writing shut
  | fin sid items hd held =>
      exact Ordered.closeStream htracked h held items (by simp) ⟨rfl, rfl, rfl, rfl, rfl⟩ rfl rfl
  | opens obj waiting =>
      exact h.opens waiting (htracked.inHand.opening obj waiting).1 ⟨rfl, rfl, rfl, rfl, rfl⟩ rfl rfl
  | @header t k sid obj writing opened session =>
      have hwritten : ((t.setStream sid { t.streams sid with header := true }).setTask i
          (some k)).Ordered := h.frameAt (Frame.setStream _ rfl id) (fun _ => ⟨rfl, rfl⟩) rfl
      exact hwritten.adjust (Task.adjusts_pc
        (htracked.inHand.frame (Frame.setStream _ rfl id)) rfl (by rw [writing]; rfl))
  | @object t k sid obj item rest writing opened session =>
      have hframe : Frame t (t.handed k sid obj item) := Frame.handed t k sid obj item
      have hwritten : ((t.handed k sid obj item).setTask i (some k)).Ordered :=
        h.frameAt hframe (fun _ => ⟨rfl, rfl⟩) rfl
      exact hwritten.adjust (Task.adjusts_pc (htracked.inHand.frame hframe) rfl
        (by rw [writing]; rfl))
  | datagram obj waiting =>
      refine h.frameAt ?_ (fun _ => ⟨rfl, rfl⟩) rfl
      exact ⟨rfl, rfl, rfl, fun _ => rfl, fun _ h => h, fun _ h => h⟩
  | @rangeEnded t k group rolls past left idle =>
      refine Ordered.rangeEnded htracked h ?_
      intro hends hrange j l hl hlive hp
      by_cases hj : j = i
      · subst hj
        rw [setTask_self] at hl
        obtain rfl := Option.some.inj hl
        exact idle
      · rw [setTask_of_ne _ _ hj] at hl
        exact hheeds group rolls hends hrange past j l hl hj hlive hp

/-- A stretch keeps the order. -/
theorem Ordered.moves {roll : Option Nat} {s s' : Track × Task}
    (ms : Relation.ReflTransGen (Move cfg roll) s s')
    (htracked : (s.1.setTask i (some s.2)).Tracked cfg) (h : (s.1.setTask i (some s.2)).Ordered)
    (hheeds : Heeds roll i s.1 s.2) : (s'.1.setTask i (some s'.2)).Ordered := by
  have hboth : (s'.1.setTask i (some s'.2)).Ordered ∧ Heeds roll i s'.1 s'.2 := by
    induction ms with
    | refl => exact ⟨h, hheeds⟩
    | tail ms m ih => exact ⟨ih.1.move m (Tracked.moves ms htracked) ih.2, ih.2.move m⟩
  exact hboth.1

end OneTask

end Track

end AioMoqt.Publisher
