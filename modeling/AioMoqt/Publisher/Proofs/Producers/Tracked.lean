import AioMoqt.Lib.Table
import AioMoqt.Publisher.Proofs.Stretch

/-!
# Who holds which stream

A task of a generated track holds at most one stream, a stream is held by at most one
task, and a peer's count of open streams covers those its tasks hold.  This is so in every
run: nothing is asked of the peers or of the order in which the tasks go on.
-/

namespace AioMoqt.Publisher

open AioMoqt.Lib

/-- The task has a stream of this peer open. -/
def Task.holds (k : Task) (p : Nat) : Bool := k.peer = p && k.stream.isSome

namespace Track

/-! ## Access -/

section Access

variable (t : Track) (i j : Nat) (k : Option Task) (p sid : Nat) (sub : Subscription)
  (stream : Stream)

@[simp] theorem setTask_self : (t.setTask i k).tasks i = k := Function.update_self ..

theorem setTask_of_ne {i j : Nat} (h : j ≠ i) : (t.setTask i k).tasks j = t.tasks j :=
  Function.update_of_ne h ..

@[simp] theorem setTask_subs : (t.setTask i k).subs = t.subs := rfl

@[simp] theorem setTask_streams : (t.setTask i k).streams = t.streams := rfl

@[simp] theorem setTask_written : (t.setTask i k).written = t.written := rfl

@[simp] theorem setSub_self : (t.setSub p sub).subs p = sub := Function.update_self ..

theorem setSub_of_ne {p q : Nat} (h : q ≠ p) : (t.setSub p sub).subs q = t.subs q :=
  Function.update_of_ne h ..

@[simp] theorem setStream_self : (t.setStream sid stream).streams sid = stream :=
  Function.update_self ..

theorem setStream_of_ne {sid other : Nat} (h : other ≠ sid) :
    (t.setStream sid stream).streams other = t.streams other := Function.update_of_ne h ..

theorem setTask_eq_self {t : Track} {i : Nat} {k : Task} (h : t.tasks i = some k) :
    t.setTask i (some k) = t := by
  rw [setTask, ← h, Function.update_eq_self]

end Access

/-- What holds of a task and its stream. -/
structure TaskTracked (cfg : Config) (t : Track) (k : Task) : Prop where
  seated : k.peer < t.numSubs
  header : k.stream.isSome → k.header.isSome
  opening : ∀ obj, k.pc = .opening obj → k.stream = none ∧ k.header.isSome
  datagram : cfg.datagram = true → k.stream = none ∧ ∀ obj, k.pc ≠ .opening obj
  known : ∀ sid, k.stream = some sid → sid < t.nextStream ∧ (t.streams sid).peer = k.peer
  writes : ∀ sid, k.pc.stream = some sid →
    sid < t.nextStream ∧ (k.stream = none ∨ k.stream = some sid) ∧
      ((t.streams sid).state = .opened → (t.subs k.peer).closed = false → k.stream = some sid)

/-- Two tasks hold different streams. -/
def Apart (k l : Task) : Prop := ∀ sid, k.stream = some sid → l.stream ≠ some sid

/-- What holds of the streams in every run. -/
structure Tracked (cfg : Config) (t : Track) : Prop where
  fresh : ∀ i, t.nextTask ≤ i → t.tasks i = none
  placed : ∀ sid < t.nextStream, (t.streams sid).peer < t.numSubs
  each : Table.Each (t.TaskTracked cfg) t.tasks
  apart : Table.Pairs Apart t.tasks
  counted : ∀ p, Table.count (·.holds p) t.nextTask t.tasks ≤ (t.subs p).openStreams

/-! ## Steps that touch no task -/

/-- The streams and the sessions are what they were, or less. -/
structure Frame (t t' : Track) : Prop where
  nextTask : t'.nextTask = t.nextTask
  nextStream : t'.nextStream = t.nextStream
  numSubs : t'.numSubs = t.numSubs
  peer : ∀ sid, (t'.streams sid).peer = (t.streams sid).peer
  state : ∀ sid, (t'.streams sid).state = .opened → (t.streams sid).state = .opened
  closed : ∀ p, (t'.subs p).closed = false → (t.subs p).closed = false

theorem Frame.refl (t : Track) : Frame t t :=
  ⟨rfl, rfl, rfl, fun _ => rfl, fun _ h => h, fun _ h => h⟩

theorem Frame.trans {t u v : Track} (h : Frame t u) (h' : Frame u v) : Frame t v where
  nextTask := h'.nextTask.trans h.nextTask
  nextStream := h'.nextStream.trans h.nextStream
  numSubs := h'.numSubs.trans h.numSubs
  peer sid := (h'.peer sid).trans (h.peer sid)
  state sid hopen := h.state sid (h'.state sid hopen)
  closed p hopen := h.closed p (h'.closed p hopen)

/-- A peer's entry is replaced on the same session. -/
theorem Frame.setSub (t : Track) (p : Nat) (sub : Subscription)
    (hclosed : sub.closed = (t.subs p).closed) : Frame t (t.setSub p sub) where
  nextTask := rfl
  nextStream := rfl
  numSubs := rfl
  peer _ := rfl
  state _ h := h
  closed q := by
    by_cases hq : q = p
    · subst hq
      rw [setSub_self, hclosed]
      exact id
    · rw [setSub_of_ne _ _ hq]
      exact id

/-- A stream is written to, or it ends. -/
theorem Frame.setStream (t : Track) {sid : Nat} {stream : Stream}
    (hpeer : stream.peer = (t.streams sid).peer)
    (hstate : stream.state = .opened → (t.streams sid).state = .opened) :
    Frame t (t.setStream sid stream) where
  nextTask := rfl
  nextStream := rfl
  numSubs := rfl
  peer other := by
    by_cases h : other = sid
    · subst h
      rw [setStream_self, hpeer]
    · rw [setStream_of_ne _ _ h]
  state other := by
    by_cases h : other = sid
    · subst h
      rw [setStream_self]
      exact hstate
    · rw [setStream_of_ne _ _ h]
      exact id
  closed _ h := h

theorem TaskTracked.frame {cfg : Config} {t t' : Track} {k : Task} (h : t.TaskTracked cfg k)
    (f : Frame t t') : t'.TaskTracked cfg k where
  __ := h
  seated := by
    rw [f.numSubs]
    exact h.seated
  known sid hsid := by
    rw [f.nextStream, f.peer]
    exact h.known sid hsid
  writes sid hpc := by
    have hold := h.writes sid hpc
    rw [f.nextStream]
    exact ⟨hold.1, hold.2.1, fun hopen hclosed =>
      hold.2.2 (f.state sid hopen) (f.closed k.peer hclosed)⟩

theorem setSub_openStreams {t : Track} {p : Nat} {sub : Subscription}
    (h : sub.openStreams = (t.subs p).openStreams) (q : Nat) :
    ((t.setSub p sub).subs q).openStreams = (t.subs q).openStreams := by
  by_cases hq : q = p
  · subst hq
    rw [setSub_self, h]
  · rw [setSub_of_ne _ _ hq]

/-- A frame keeps what holds of the streams. -/
theorem Tracked.frame {cfg : Config} {t t' : Track} (h : t.Tracked cfg) (f : Frame t t')
    (htasks : t'.tasks = t.tasks)
    (hopen : ∀ p, (t'.subs p).openStreams = (t.subs p).openStreams) : t'.Tracked cfg where
  fresh i hi := by
    rw [htasks]
    exact h.fresh i (by rwa [f.nextTask] at hi)
  placed sid hsid := by
    rw [f.peer, f.numSubs]
    exact h.placed sid (by rwa [f.nextStream] at hsid)
  each := by
    rw [htasks]
    exact h.each.mono fun k hk => hk.frame f
  apart := by
    rw [htasks]
    exact h.apart
  counted p := by
    rw [f.nextTask, htasks, hopen]
    exact h.counted p

/-! ## Steps of one task -/

section OneTask

variable {cfg : Config} {t : Track} {i : Nat} {k k' : Task}

theorem Tracked.lt_nextTask (h : (t.setTask i (some k)).Tracked cfg) : i < t.nextTask := by
  by_contra hi
  have hnone := h.fresh i (Nat.not_lt.mp hi)
  rw [setTask_self] at hnone
  exact Option.some_ne_none k hnone

theorem Frame.setTask (t : Track) (i : Nat) (o : Option Task) : Frame t (t.setTask i o) :=
  ⟨rfl, rfl, rfl, fun _ => rfl, fun _ h => h, fun _ h => h⟩

theorem Frame.unsetTask (t : Track) (i : Nat) (o : Option Task) : Frame (t.setTask i o) t :=
  ⟨rfl, rfl, rfl, fun _ => rfl, fun _ h => h, fun _ h => h⟩

theorem Frame.exchange (t : Track) (i : Nat) (o o' : Option Task) :
    Frame (t.setTask i o) (t.setTask i o') := (Frame.unsetTask t i o).trans (Frame.setTask t i o')

theorem Tracked.inHand (h : (t.setTask i (some k)).Tracked cfg) : t.TaskTracked cfg k :=
  h.each.inHand.frame (Frame.unsetTask ..)

theorem Tracked.fresh_setTask (h : (t.setTask i (some k)).Tracked cfg) (o : Option Task) :
    ∀ j, t.nextTask ≤ j → (t.setTask i o).tasks j = none := by
  intro j hj
  have hne : j ≠ i := by
    rintro rfl
    exact absurd h.lt_nextTask (Nat.not_lt.mpr hj)
  rw [setTask_of_ne _ _ hne, ← setTask_of_ne t (some k) hne]
  exact h.fresh j hj

/-- A task goes on with the stream it has. -/
theorem Tracked.adjust (h : (t.setTask i (some k)).Tracked cfg) (ha : k.Adjusts cfg t k') :
    (t.setTask i (some k')).Tracked cfg where
  fresh := h.fresh_setTask _
  placed := h.placed
  each := by
    have hk := h.inHand
    refine Table.Each.exchange (h.each.mono fun _ hl => hl.frame (Frame.exchange ..))
      (TaskTracked.frame ⟨?_, ha.header, ?_, ?_, ?_, ?_⟩ (Frame.setTask ..))
    · rw [ha.same.peer]
      exact hk.seated
    · exact fun obj hpc => (ha.opening obj hpc).2
    · intro hd
      refine ⟨ha.stream.trans (hk.datagram hd).1, fun obj hpc => ?_⟩
      exact absurd hd (by rw [(ha.opening obj hpc).1]; simp)
    · rw [ha.stream, ha.same.peer]
      exact hk.known
    · intro sid hsid
      rw [ha.stream, ha.same.peer]
      obtain hold | hold := ha.writes sid hsid
      · exact hk.writes sid hold
      · exact ⟨(hk.known sid hold).1, Or.inr hold, fun _ _ => hold⟩
  apart := by
    apply h.apart.exchange
    · intro j l _ _ hl sid hsid
      exact hl sid (by rwa [ha.stream] at hsid)
    · intro j l _ _ hl sid hsid
      rw [ha.stream]
      exact hl sid hsid
  counted p := by
    refine le_trans (Table.count_exchange_le ?_) (h.counted p)
    simp only [Task.holds, ha.same.peer, ha.stream]
    exact id

/-- The other tasks are as they were. -/
theorem Tracked.frameAt {t' : Track} (h : (t.setTask i (some k)).Tracked cfg) (f : Frame t t')
    (htasks : t'.tasks = t.tasks)
    (hopen : ∀ p, (t'.subs p).openStreams = (t.subs p).openStreams) :
    (t'.setTask i (some k)).Tracked cfg := by
  refine h.frame ⟨f.nextTask, f.nextStream, f.numSubs, f.peer, f.state, f.closed⟩ ?_ hopen
  rw [setTask, setTask, htasks]

/-- A task lets go of its stream, which is closed. -/
theorem Tracked.release {sid : Nat} (h : (t.setTask i (some k)).Tracked cfg)
    (hheld : k.stream = some sid)
    (hshut : (t.streams sid).state = .opened → (t.subs k.peer).closed = true)
    (hsame : k.Same k') (hstream : k'.stream = none) (hpc : k'.pc = k.pc) :
    ((t.setSub k.peer (t.subs k.peer).streamClosed).setTask i (some k')).Tracked cfg where
  fresh := h.fresh_setTask _
  placed := h.placed
  each := by
    have hk := h.inHand
    have hframe : Frame t (t.setSub k.peer (t.subs k.peer).streamClosed) := Frame.setSub t _ _ rfl
    refine Table.Each.exchange (h.each.mono fun _ hl =>
      ((hl.frame (Frame.unsetTask ..)).frame hframe).frame (Frame.setTask ..))
      (TaskTracked.frame (t := t) ?_ (hframe.trans (Frame.setTask ..)))
    constructor
    case seated =>
      rw [hsame.peer]
      exact hk.seated
    case header => exact fun hsome => absurd hsome (by simp [hstream])
    case opening =>
      intro obj hobj
      rw [hpc] at hobj
      exact absurd (hk.opening obj hobj).1 (by simp [hheld])
    case datagram =>
      intro hd
      exact absurd (hk.datagram hd).1 (by simp [hheld])
    case known => exact fun _ hsome => absurd hsome (by simp [hstream])
    case writes =>
      intro other hother
      rw [hpc] at hother
      have hold := hk.writes other hother
      refine ⟨hold.1, Or.inl hstream, fun hopen hclosed => ?_⟩
      -- Had it been open, the stream written to would have been the one let go of.
      have heq : sid = other := Option.some.inj (hheld.symm.trans
        (hold.2.2 hopen (by rwa [hsame.peer] at hclosed)))
      rw [← heq] at hopen
      rw [hsame.peer, hshut hopen] at hclosed
      exact absurd hclosed (by simp)
  apart := by
    apply h.apart.exchange
    · intro j l _ _ _ other hother
      simp [hstream] at hother
    · intro j l _ _ _ other _
      simp [hstream]
  counted p := by
    have hcount : Table.count (·.holds p) t.nextTask (Function.update t.tasks i (some k)) ≤
        (t.subs p).openStreams := h.counted p
    show Table.count (·.holds p) t.nextTask (Function.update t.tasks i (some k')) ≤
      ((t.setSub k.peer (t.subs k.peer).streamClosed).subs p).openStreams
    by_cases hp : p = k.peer
    · have hdrop : Table.count (·.holds p) t.nextTask (Function.update t.tasks i (some k')) + 1 =
          Table.count (·.holds p) t.nextTask (Function.update t.tasks i (some k)) :=
        Table.count_release h.lt_nextTask (by simp [Task.holds, hheld, hp])
          (by simp [Task.holds, hstream])
      rw [← hp, setSub_self]
      show _ ≤ (t.subs p).openStreams - 1
      omega
    · rw [setSub_of_ne _ _ hp]
      refine le_trans (Table.count_exchange_le ?_) hcount
      simp [Task.holds, hstream]

/-- What opening a stream leaves of the peers: the count of all streams goes to the first,
that of the open ones to the task's own. -/
theorem openStream_subs (t : Track) (k : Task) (p : Nat) :
    (t.openStream k).subs p = { t.subs p with
      streamCount := (t.subs p).streamCount + if p = 0 then 1 else 0
      openStreams := (t.subs p).openStreams + if p = k.peer then 1 else 0 } := by
  show ((t.setSub 0 { t.subs 0 with streamCount := (t.subs 0).streamCount + 1 }).setSub k.peer
    _).subs p = _
  by_cases hp : p = k.peer
  · rw [← hp, setSub_self]
    by_cases hzero : p = 0
    · rw [hzero, setSub_self]
      rfl
    · rw [setSub_of_ne _ _ hzero, Subscription.streamOpened]
      simp [hzero]
  · rw [setSub_of_ne _ _ hp]
    by_cases hzero : p = 0
    · subst hzero
      rw [setSub_self]
      simp [hp]
    · rw [setSub_of_ne _ _ hzero]
      simp [hp, hzero]

theorem openStream_streams (t : Track) (k : Task) {sid : Nat} (hsid : sid < t.nextStream) :
    (t.openStream k).streams sid = t.streams sid :=
  setStream_of_ne _ _ (Nat.ne_of_lt hsid)

theorem openStream_stream (t : Track) (k : Task) : (t.openStream k).streams t.nextStream =
    ⟨k.peer, k.trackAlias, k.group, k.subgroup, false, [], .opened, 0⟩ := setStream_self ..

/-- What a task holds is not touched by another that opens a stream. -/
theorem TaskTracked.opens {l : Task} (h : t.TaskTracked cfg l) :
    (t.openStream k).TaskTracked cfg l where
  __ := h
  known sid hsid := by
    have hold := h.known sid hsid
    rw [openStream_streams t k hold.1]
    exact ⟨Nat.lt_succ_of_lt hold.1, hold.2⟩
  writes sid hsid := by
    have hold := h.writes sid hsid
    rw [openStream_streams t k hold.1, openStream_subs]
    exact ⟨Nat.lt_succ_of_lt hold.1, hold.2⟩

/-- A task opens a stream. -/
theorem Tracked.opens {obj : Generated} (h : (t.setTask i (some k)).Tracked cfg)
    (hpc : k.pc = .opening obj) (hsame : k.Same k') (hheader : k'.header.isSome)
    (hstream : k'.stream = some t.nextStream) (hpc' : k'.pc = .header t.nextStream obj false) :
    ((t.openStream k).setTask i (some k')).Tracked cfg where
  fresh := h.fresh_setTask _
  placed sid hsid := by
    have hlt : sid < t.nextStream + 1 := hsid
    obtain hlt | rfl := Nat.lt_succ_iff_lt_or_eq.mp hlt
    · have hold := h.placed sid hlt
      rwa [setTask_streams, openStream_streams t k hlt]
    · rw [setTask_streams, openStream_stream]
      exact h.inHand.seated
  each := by
    have hk := h.inHand
    refine Table.Each.exchange (h.each.mono fun _ hl =>
      (hl.frame (Frame.unsetTask ..)).opens.frame (Frame.setTask ..))
      (TaskTracked.frame (t := t.openStream k) ?_ (Frame.setTask ..))
    constructor
    case seated =>
      rw [hsame.peer]
      exact hk.seated
    case header => exact fun _ => hheader
    case opening => exact fun _ hobj => absurd hobj (by simp [hpc'])
    case datagram => exact fun hd => absurd hpc ((hk.datagram hd).2 obj)
    case known =>
      intro sid hsid
      obtain rfl : t.nextStream = sid := Option.some.inj (hstream.symm.trans hsid)
      rw [openStream_stream, hsame.peer]
      exact ⟨Nat.lt_succ_self _, rfl⟩
    case writes =>
      intro sid hsid
      rw [hpc'] at hsid
      obtain rfl : t.nextStream = sid := Option.some.inj hsid
      exact ⟨Nat.lt_succ_self _, Or.inr hstream, fun _ _ => hstream⟩
  apart := by
    -- No other task holds a stream that is only now opened.
    have hother : ∀ j l, t.tasks j = some l → j ≠ i → l.stream ≠ some t.nextStream := by
      intro j l hl hj hsid
      have hknown := (h.each j l (by rwa [setTask_of_ne _ _ hj])).known _ hsid
      exact absurd hknown.1 (Nat.lt_irrefl _)
    apply h.apart.exchange
    · intro j l hl hj _ sid hsid
      obtain rfl : t.nextStream = sid := Option.some.inj (hstream.symm.trans hsid)
      exact hother j l hl hj
    · intro j l hl hj _ sid hsid heq
      obtain rfl : t.nextStream = sid := Option.some.inj (hstream.symm.trans heq)
      exact hother j l hl hj hsid
  counted p := by
    have hcount : Table.count (·.holds p) t.nextTask (Function.update t.tasks i (some k)) ≤
        (t.subs p).openStreams := h.counted p
    show Table.count (·.holds p) t.nextTask (Function.update t.tasks i (some k')) ≤
      ((t.openStream k).subs p).openStreams
    rw [openStream_subs]
    have hnone := (h.inHand.opening obj hpc).1
    by_cases hp : p = k.peer
    · have hadd : Table.count (·.holds p) t.nextTask (Function.update t.tasks i (some k)) + 1 =
          Table.count (·.holds p) t.nextTask (Function.update t.tasks i (some k')) :=
        Table.count_release h.lt_nextTask (by simp [Task.holds, hstream, hp, hsame.peer])
          (by simp [Task.holds, hnone])
      simp only [hp, if_true] at *
      omega
    · simp only [hp, if_false, Nat.add_zero]
      refine le_trans (Table.count_exchange_le ?_) hcount
      simp [Task.holds, hsame.peer, Ne.symm hp]

/-- A task ends. -/
theorem Tracked.finish (h : (t.setTask i (some k)).Tracked cfg) : (t.setTask i none).Tracked cfg where
  fresh := h.fresh_setTask _
  placed := h.placed
  each := h.each.drop.mono fun _ hl => hl.frame (Frame.exchange ..)
  apart := h.apart.drop
  counted p := le_trans Table.count_drop_le (h.counted p)

/-! ## Moves -/

theorem finishRange_closed (sub : Subscription) : sub.finishRange.closed = sub.closed := by
  unfold Subscription.finishRange
  split <;> rfl

theorem finishRange_openStreams (sub : Subscription) :
    sub.finishRange.openStreams = sub.openStreams := by
  unfold Subscription.finishRange
  split <;> rfl

theorem setSub_subs_self (t : Track) (p : Nat) : t.setSub p (t.subs p) = t := by
  rw [setSub, Function.update_eq_self]

/-- The end of a subscription touches no stream. -/
theorem Tracked.finishRange {p : Nat} {sub : Subscription} (h : (t.setSub p sub).Tracked cfg) :
    (t.finishRange p sub).Tracked cfg := by
  have hsubs : ∀ q, ((t.finishRange p sub).subs q).closed = ((t.setSub p sub).subs q).closed ∧
      ((t.finishRange p sub).subs q).openStreams = ((t.setSub p sub).subs q).openStreams := by
    intro q
    show ((t.setSub p sub.finishRange).subs q).closed = _ ∧
      ((t.setSub p sub.finishRange).subs q).openStreams = _
    by_cases hq : q = p
    · subst hq
      simp only [setSub_self]
      exact ⟨finishRange_closed sub, finishRange_openStreams sub⟩
    · rw [setSub_of_ne _ _ hq, setSub_of_ne _ _ hq]
      exact ⟨rfl, rfl⟩
  refine h.frame ⟨rfl, rfl, rfl, fun _ => rfl, fun _ h => h, ?_⟩ rfl fun q => (hsubs q).2
  intro q hq
  rwa [← (hsubs q).1]

/-- The same while a task is in hand. -/
theorem Tracked.finishRangeAt {p : Nat} {sub : Subscription}
    (h : ((t.setSub p sub).setTask i (some k)).Tracked cfg) :
    ((t.finishRange p sub).setTask i (some k)).Tracked cfg :=
  Tracked.finishRange (t := t.setTask i (some k)) h

theorem Frame.closeStream (t : Track) (sid : Nat) (items : List Item) {state : StreamState}
    (hstate : state ≠ .opened) : Frame t (t.closeStream sid items state) := by
  unfold Track.closeStream
  simp only
  split
  · exact Frame.setStream t rfl fun h => absurd h hstate
  · exact Frame.refl t

theorem closeStream_shut (t : Track) (sid : Nat) (items : List Item) {state : StreamState}
    (hstate : state ≠ .opened) : ((t.closeStream sid items state).streams sid).state ≠ .opened := by
  unfold closeStream
  simp only
  split
  · rw [setStream_self]
    exact hstate
  · assumption

theorem closeStream_subs (t : Track) (sid : Nat) (items : List Item) (state : StreamState) :
    (t.closeStream sid items state).subs = t.subs := by
  unfold closeStream
  simp only
  split <;> rfl

theorem closeStream_tasks (t : Track) (sid : Nat) (items : List Item) (state : StreamState) :
    (t.closeStream sid items state).tasks = t.tasks := by
  unfold closeStream
  simp only
  split <;> rfl

/-- A task closes its stream. -/
theorem Tracked.close {sid : Nat} (h : (t.setTask i (some k)).Tracked cfg)
    (hheld : k.stream = some sid)
    (hshut : (t.streams sid).state = .opened → (t.subs k.peer).closed = true)
    (hsame : k.Same k') (hstream : k'.stream = none) (hpc : k'.pc = k.pc) :
    ((t.streamClosed k.peer).setTask i (some k')).Tracked cfg :=
  (h.release hheld hshut hsame hstream hpc).finishRangeAt

/-- A task ends its stream, and closes it. -/
theorem Tracked.closeStream {sid : Nat} (h : (t.setTask i (some k)).Tracked cfg)
    (hheld : k.stream = some sid) (items : List Item) {state : StreamState}
    (hstate : state ≠ .opened) (hsame : k.Same k') (hstream : k'.stream = none)
    (hpc : k'.pc = k.pc) :
    (((t.closeStream sid items state).streamClosed k.peer).setTask i (some k')).Tracked cfg := by
  have hclosed : ((t.closeStream sid items state).setTask i (some k)).Tracked cfg :=
    h.frameAt (Frame.closeStream t sid items hstate) (closeStream_tasks ..) fun p => by
      rw [closeStream_subs]
  exact hclosed.close hheld (fun hopen => absurd hopen (closeStream_shut t sid items hstate))
    hsame hstream hpc

theorem Tracked.reset (h : (t.setTask i (some k)).Tracked cfg) :
    ((t.reset k).1.setTask i (some (t.reset k).2)).Tracked cfg := by
  unfold Track.reset
  split
  · exact h
  next sid hheld =>
      simp only
      split
      next hclosed => exact h.close hheld (fun _ => hclosed) ⟨rfl, rfl, rfl, rfl, rfl⟩ rfl rfl
      · exact h.closeStream hheld [] (by simp) ⟨rfl, rfl, rfl, rfl, rfl⟩ rfl rfl

theorem Tracked.rangeEnded (h : (t.setTask i (some k)).Tracked cfg) (p : Nat) :
    ((t.rangeEnded p).setTask i (some k)).Tracked cfg := by
  unfold Track.rangeEnded
  simp only
  split
  · split
    · apply Tracked.finishRangeAt
      exact h.frameAt (Frame.setSub t _ _ rfl) rfl (setSub_openStreams rfl)
    · exact h
  · exact h.frameAt (Frame.setSub t _ _ rfl) rfl (setSub_openStreams rfl)

/-- A task that is writing is told that its stream was stopped. -/
theorem Task.adjusts_stopped {sid : Nat} (hk : t.TaskTracked cfg k)
    (hpc : k.pc.stream = some sid) : k.Adjusts cfg t { k with stopped := true } where
  same := ⟨rfl, rfl, rfl, rfl, rfl⟩
  stream := rfl
  header := hk.header
  writes _ h := Or.inl h
  opening obj hobj := by
    rw [show k.pc = .opening obj from hobj] at hpc
    simp [Pc.stream] at hpc
  begins hbegins := by
    cases hk : k.pc <;> simp_all [Pc.stream, Pc.Begins]

/-- The stream a task writes to is the one it holds. -/
theorem TaskTracked.held_eq {sid held : Nat} (hk : t.TaskTracked cfg k)
    (hpc : k.pc.stream = some sid) (hheld : k.stream = some held) : held = sid := by
  have hwrites := (hk.writes sid hpc).2.1
  simpa [hheld] using hwrites

theorem Tracked.stop {sid : Nat} (h : (t.setTask i (some k)).Tracked cfg)
    (hpc : k.pc.stream = some sid) (hshut : (t.streams sid).state ≠ .opened) :
    ((t.stop k).1.setTask i (some (t.stop k).2)).Tracked cfg := by
  unfold Track.stop
  split
  next hnone => exact h.adjust (Task.adjusts_stopped h.inHand hpc)
  next held hheld =>
      refine h.close hheld (fun hopen => ?_) ⟨rfl, rfl, rfl, rfl, rfl⟩ rfl rfl
      rw [h.inHand.held_eq hpc hheld] at hopen
      exact absurd hopen hshut

/-- A task writes on. -/
theorem Task.adjusts_pc {pc : Pc} (hk : t.TaskTracked cfg k) (hsome : pc.stream.isSome)
    (hpc : pc.stream = k.pc.stream) : k.Adjusts cfg t { k with pc } where
  same := ⟨rfl, rfl, rfl, rfl, rfl⟩
  stream := rfl
  header := hk.header
  writes sid hsid := Or.inl (hpc.symm.trans hsid)
  opening obj hobj := by
    rw [show pc = .opening obj from hobj] at hsome
    simp [Pc.stream] at hsome
  begins hbegins := by
    cases pc <;> simp_all [Pc.stream, Pc.Begins]

theorem Frame.handed (t : Track) (k : Task) (sid : Nat) (obj : Generated) (item : Item) :
    Frame t (t.handed k sid obj item) := by
  have hframe : Frame t (t.setStream sid
      { t.streams sid with items := (t.streams sid).items ++ [item] }) := Frame.setStream t rfl id
  exact ⟨rfl, rfl, rfl, hframe.peer, hframe.state, fun _ h => h⟩

/-- A move keeps what holds of the streams. -/
theorem Tracked.move {roll : Option Nat} {s s' : Track × Task} (m : Move cfg roll s s')
    (h : (s.1.setTask i (some s.2)).Tracked cfg) :
    (s'.1.setTask i (some s'.2)).Tracked cfg := by
  cases m with
  | adjust ha => exact h.adjust ha
  | note stamp =>
      refine h.frameAt ?_ rfl fun _ => rfl
      exact ⟨rfl, rfl, rfl, fun _ => rfl, fun _ h => h, fun _ h => h⟩
  | first sid n held => exact h.frameAt (Frame.setStream _ rfl id) rfl fun _ => rfl
  | reset => exact h.reset
  | stop sid writing shut session => exact h.stop writing shut
  | fin sid items hd held =>
      exact h.closeStream held items (by simp) ⟨rfl, rfl, rfl, rfl, rfl⟩ rfl rfl
  | opens obj waiting =>
      refine h.opens waiting ⟨rfl, rfl, rfl, rfl, rfl⟩ ?_ rfl rfl
      have hheader := (h.inHand.opening obj waiting).2
      simpa using hheader
  | @header t k sid obj writing opened session =>
      have hwritten : ((t.setStream sid { t.streams sid with header := true }).setTask i
          (some k)).Tracked cfg := h.frameAt (Frame.setStream _ rfl id) rfl fun _ => rfl
      exact hwritten.adjust (Task.adjusts_pc hwritten.inHand rfl (by rw [writing]; rfl))
  | @object t k sid obj item rest writing opened session =>
      have hwritten : ((t.handed k sid obj item).setTask i (some k)).Tracked cfg :=
        h.frameAt (Frame.handed t k sid obj item) rfl fun _ => rfl
      exact hwritten.adjust (Task.adjusts_pc hwritten.inHand rfl (by rw [writing]; rfl))
  | datagram obj waiting =>
      refine h.frameAt ?_ rfl fun _ => rfl
      exact ⟨rfl, rfl, rfl, fun _ => rfl, fun _ h => h, fun _ h => h⟩
  | rangeEnded group rolls past left idle => exact h.rangeEnded _

theorem Tracked.moves {roll : Option Nat} {s s' : Track × Task}
    (ms : Relation.ReflTransGen (Move cfg roll) s s')
    (h : (s.1.setTask i (some s.2)).Tracked cfg) : (s'.1.setTask i (some s'.2)).Tracked cfg := by
  induction ms with
  | refl => exact h
  | tail _ m ih => exact ih.move m

theorem closeStream_numSubs (t : Track) (sid : Nat) (items : List Item) (state : StreamState) :
    (t.closeStream sid items state).numSubs = t.numSubs := by
  unfold Track.closeStream
  simp only
  split <;> rfl

theorem reset_numSubs (t : Track) (k : Task) : (t.reset k).1.numSubs = t.numSubs := by
  unfold Track.reset
  split
  · rfl
  · simp only
    split
    · rfl
    · exact closeStream_numSubs ..

theorem Move.tasks {roll : Option Nat} {s s' : Track × Task} (m : Move cfg roll s s') :
    s'.1.tasks = s.1.tasks := by
  cases m with
  | reset =>
      simp only [Track.reset]
      split
      · rfl
      · simp only
        split
        · rfl
        · exact closeStream_tasks ..
  | stop =>
      simp only [Track.stop]
      split <;> rfl
  | fin sid items hd held => exact closeStream_tasks ..
  | rangeEnded =>
      simp only [Track.rangeEnded]
      split
      · split <;> rfl
      · rfl
  | _ => rfl

theorem Moves.tasks {roll : Option Nat} {s s' : Track × Task}
    (ms : Relation.ReflTransGen (Move cfg roll) s s') : s'.1.tasks = s.1.tasks := by
  induction ms with
  | refl => rfl
  | tail _ m ih => exact m.tasks.trans ih

/-- The track where a stretch ends. -/
def Outcome.track : Outcome → Track
  | .awaits t _ => t
  | .ends t => t

/-- A stretch leaves the table of tasks to the loop that runs them. -/
theorem resume_tasks (htask : t.TaskTracked cfg k) (stamp : Stamp) :
    (t.resume cfg k stamp).track.tasks = t.tasks := by
  have hstretch : Stretch cfg (t.rollsTo cfg k) (t.Raises cfg k) (t, k) (t.resume cfg k stamp) :=
    resume_stretch (fun hd => (htask.datagram hd).1) htask.header stamp
  generalize t.resume cfg k stamp = outcome at hstretch ⊢
  cases hstretch with
  | awaits moves => exact Moves.tasks moves
  | ends moves left => exact Moves.tasks moves
  | raises moves because => exact Moves.tasks moves

/-- A task runs: what is to be shown of the track after it, for each way its stretch can
end. -/
theorem Tracked.runTask_cases {P : Track → Prop} (h : t.Tracked cfg) (i : Nat) (stamp : Stamp)
    (gone : t.tasks i = none → P t)
    (cancelled : ∀ k, t.tasks i = some k → k.cancelled = true → P ((t.reset k).1.setTask i none))
    (awaits : ∀ k u l, t.tasks i = some k → k.cancelled = false →
      Relation.ReflTransGen (Move cfg (t.rollsTo cfg k)) (t, k) (u, l) →
        P (u.setTask i (some l)))
    (ends : ∀ k u l, t.tasks i = some k → k.cancelled = false →
      Relation.ReflTransGen (Move cfg (t.rollsTo cfg k)) (t, k) (u, l) →
        l.stream = none ∨ t.Raises cfg k → P (u.setTask i none)) :
    P (t.runTask cfg i stamp) := by
  unfold Track.runTask
  split
  next hnone => exact gone hnone
  next k hk =>
      split
      next hcancelled => exact cancelled k hk hcancelled
      next hlive =>
          have htask := h.each i k hk
          have hstretch : Stretch cfg (t.rollsTo cfg k) (t.Raises cfg k) (t, k)
              (t.resume cfg k stamp) :=
            resume_stretch (fun hd => (htask.datagram hd).1) htask.header stamp
          have hlive : k.cancelled = false := by simpa using hlive
          generalize t.resume cfg k stamp = outcome at hstretch ⊢
          cases hstretch with
          | awaits moves => exact awaits k _ _ hk hlive moves
          | ends moves left => exact ends k _ _ hk hlive moves (Or.inl left)
          | raises moves because => exact ends k _ _ hk hlive moves (Or.inr because)

theorem Tracked.runTask (h : t.Tracked cfg) (i : Nat) (stamp : Stamp) :
    (t.runTask cfg i stamp).Tracked cfg := by
  have hat : ∀ k, t.tasks i = some k → (t.setTask i (some k)).Tracked cfg := by
    intro k hk
    rwa [setTask_eq_self hk]
  apply h.runTask_cases
  case gone => exact fun _ => h
  case cancelled => exact fun k hk _ => (hat k hk).reset.finish
  case awaits => exact fun k _ _ hk _ moves => Tracked.moves moves (hat k hk)
  case ends => exact fun k _ _ hk _ moves _ => (Tracked.moves moves (hat k hk)).finish

end OneTask

end Track

end AioMoqt.Publisher
