import AioMoqt.Publisher.Proofs.Producers.Standing

/-!
# The producers of a generated track

In every run whose steps are in order, a peer has one producer a subgroup, it is written
nothing but for a live request, and each Location once.
-/

namespace AioMoqt.Publisher

open AioMoqt.Lib AioMoqt.Messages

namespace Track

/-- A peer is served under a live subscription, each Location once: one producer a
subgroup writes to it, no Location is written to it twice, and while it has no subscriber
its open streams are those of tasks that are told to end, which reset them. -/
structure Served (cfg : Config) (t : Track) : Prop where
  single : ∀ i j k l, t.tasks i = some k → t.tasks j = some l → k.cancelled = false →
    l.cancelled = false → k.peer = l.peer → k.subgroup = l.subgroup → i = j
  once : t.written.Pairwise Written.Differs
  reset : ∀ sid < t.nextStream, (t.streams sid).state = .opened →
    (t.subs (t.streams sid).peer).closed = false →
      (t.subs (t.streams sid).peer).requests = [] →
        ∃ i k, t.tasks i = some k ∧ k.cancelled = true ∧
          ∀ stamp, ((t.step cfg (.run i stamp)).streams sid).state = .reset

/-- From `t` to `u`, objects were written and streams opened only for requests that were
live, and the streams of a peer without any were not written to. -/
structure Sends (t u : Track) : Prop where
  written : ∀ w ∈ u.written, w ∈ t.written ∨ w.trackAlias ∈ (t.subs w.peer).aliases
  opened : ∀ sid, t.nextStream ≤ sid → sid < u.nextStream →
    (u.streams sid).trackAlias ∈ (t.subs (u.streams sid).peer).aliases
  kept : ∀ sid < t.nextStream, (t.subs (t.streams sid).peer).requests = [] →
    (u.streams sid).header = (t.streams sid).header ∧
      (u.streams sid).items = (t.streams sid).items

variable {cfg : Config} {t t' u : Track} {k l : Task} {i : Nat}

/-! ## The order, step by step -/

/-- A task that stands where it should raises only over the head of a stream. -/
theorem not_raises (hsize : 0 < cfg.groupSize) (h : k.Placed cfg t.written)
    (hhead : ∀ sid obj, k.pc = .header sid obj true → ¬ t.HeadUncodable cfg k obj) :
    ¬ t.Raises cfg k := by
  have hcoded := h.coded
  have hnext : ∀ hd ∈ k.header, hd.nextObjectId = k.nextId := by
    intro hd hheader
    rw [Option.mem_def] at hheader
    rw [Task.nextId, hheader]
    rfl
  -- The next object, and the marker of the group, come after what was coded last.
  have hpresent : k.nextId ≤ k.object →
      ¬ (Uncodable k (some k.object) ∨ k.subgroup = 0 ∧ Uncodable k (some cfg.groupSize)) := by
    rintro hle (⟨-, hd, hheader, id, hid, hlt⟩ | ⟨hzero, -, hd, hheader, id, hid, hlt⟩)
    · obtain rfl := Option.some.inj hid
      rw [hnext hd hheader] at hlt
      omega
    · obtain rfl := Option.some.inj hid
      rw [hnext hd hheader] at hlt
      have hmarker := h.marker hsize hzero
      omega
  unfold Raises
  unfold Task.Coded at hcoded
  cases hpc : k.pc with
  | ready =>
      simp only [hpc] at hcoded
      exact hpresent hcoded
  | barrier =>
      simp only [hpc] at hcoded
      exact hpresent hcoded
  | opening obj => exact id
  | header sid obj handed =>
      cases handed with
      | false => exact id
      | true => exact hhead sid obj hpc
  | sending sid obj item rest handed =>
      cases handed with
      | false => exact id
      | true =>
          simp only [hpc] at hcoded
          rintro ⟨-, hd, hheader, id, hid, hlt⟩
          rw [hnext hd hheader] at hlt
          obtain ⟨o, ho, rfl⟩ := Option.map_eq_some_iff.mp hid
          have hsorted := h.sorted
          rw [hpc] at hsorted
          have hafter := (List.pairwise_cons.mp hsorted).1 o (List.mem_of_mem_head? ho)
          omega
  | datagram obj => exact id

/-! ## The order, run by run -/

theorem Ordered.runTask (hsize : 0 < cfg.groupSize) (htracked : t.Tracked cfg) (h : t.Ordered)
    (hlocated : t.Located cfg)
    {i : Nat} {stamp : Stamp} (hclear : Orderly cfg t (.run i stamp)) :
    (t.runTask cfg i stamp).Ordered := by
  have hat : ∀ k, t.tasks i = some k → (t.setTask i (some k)).Tracked cfg ∧
      (t.setTask i (some k)).Ordered := by
    intro k hk
    rw [setTask_eq_self hk]
    exact ⟨htracked, h⟩
  apply htracked.runTask_cases
  case gone => exact fun _ => h
  case cancelled =>
    intro k hk _
    exact (Ordered.reset (hat k hk).1 (hat k hk).2).finish (reset_stream t k)
  case awaits =>
    intro k u l hk hlive moves
    exact Ordered.moves moves (hat k hk).1 (hat k hk).2 (hclear k hk hlive).2
  case ends =>
    intro k u l hk hlive moves hleft
    have hmoved := Ordered.moves moves (hat k hk).1 (hat k hk).2 (hclear k hk hlive).2
    have hnot := not_raises hsize (hlocated.placed i k hk hlive).1 (hclear k hk hlive).1
    exact hmoved.finish (hleft.resolve_right hnot)

/-! ## What is sent -/

theorem Sends.of_still (h : Still t u) : Sends t u where
  written w hw := Or.inl (h.written ▸ hw)
  opened sid hle hlt := by
    rw [h.nextStream] at hlt
    omega
  kept sid _ _ := by
    rw [(h.streams sid).same]
    exact ⟨rfl, rfl⟩

/-- The same over moves, with what makes them compose: streams keep their owners, and
requests only go. -/
structure Runs (t u : Track) : Prop extends Sends t u where
  next : t.nextStream ≤ u.nextStream
  owner : ∀ sid < t.nextStream, (u.streams sid).peer = (t.streams sid).peer ∧
    (u.streams sid).trackAlias = (t.streams sid).trackAlias
  requests : ∀ p, (u.subs p).requests = (t.subs p).requests ∨ (u.subs p).requests = []

theorem Runs.refl (t : Track) : Runs t t where
  toSends := Sends.of_still (Still.refl t)
  next := Nat.le_refl _
  owner _ _ := ⟨rfl, rfl⟩
  requests _ := Or.inl rfl

theorem Runs.aliases_subset (h : Runs t u) (p : Nat) :
    (u.subs p).aliases ⊆ (t.subs p).aliases := by
  unfold Subscription.aliases
  obtain hsame | hempty := h.requests p
  · rw [hsame]
    exact List.Subset.refl _
  · rw [hempty]
    exact List.nil_subset _

theorem Runs.trans {v : Track} (h : Runs t u) (h' : Runs u v) : Runs t v where
  written w hw := by
    obtain hw | halias := h'.written w hw
    · exact h.written w hw
    · exact Or.inr (h.aliases_subset _ halias)
  opened sid hle hlt := by
    by_cases hnew : u.nextStream ≤ sid
    · exact h.aliases_subset _ (h'.opened sid hnew hlt)
    · have howner := h'.owner sid (Nat.not_le.mp hnew)
      rw [howner.1, howner.2]
      exact h.opened sid hle (Nat.not_le.mp hnew)
  kept sid hlt hempty := by
    have hkept := h.kept sid hlt hempty
    have hpeer := (h.owner sid hlt).1
    have hempty' : (u.subs (u.streams sid).peer).requests = [] := by
      rw [hpeer]
      exact (h.requests _).elim (·.trans hempty) id
    have hkept' := h'.kept sid (Nat.lt_of_lt_of_le hlt h.next) hempty'
    exact ⟨hkept'.1.trans hkept.1, hkept'.2.trans hkept.2⟩
  next := h.next.trans h'.next
  owner sid hlt := by
    have howner := h.owner sid hlt
    have howner' := h'.owner sid (Nat.lt_of_lt_of_le hlt h.next)
    exact ⟨howner'.1.trans howner.1, howner'.2.trans howner.2⟩
  requests p := by
    obtain hsame | hempty := h'.requests p
    · rw [hsame]
      exact h.requests p
    · exact Or.inr hempty

/-- The streams stay, and requests go. -/
theorem Runs.of_requests (hwritten : u.written = t.written) (hnext : u.nextStream = t.nextStream)
    (hstreams : u.streams = t.streams)
    (hrequests : ∀ p, (u.subs p).requests = (t.subs p).requests ∨ (u.subs p).requests = []) :
    Runs t u where
  written w hw := Or.inl (hwritten ▸ hw)
  opened sid hle hlt := by
    rw [hnext] at hlt
    omega
  kept sid _ _ := by
    rw [hstreams]
    exact ⟨rfl, rfl⟩
  next := hnext.ge
  owner sid _ := by
    rw [hstreams]
    exact ⟨rfl, rfl⟩
  requests := hrequests

/-- One stream is written to, for a live request. -/
theorem Runs.setStream {sid : Nat} {stream : Stream} (hpeer : stream.peer = (t.streams sid).peer)
    (halias : stream.trackAlias = (t.streams sid).trackAlias)
    (hkept : (t.subs (t.streams sid).peer).requests = [] →
      stream.header = (t.streams sid).header ∧ stream.items = (t.streams sid).items) :
    Runs t (t.setStream sid stream) where
  written w hw := Or.inl hw
  opened other hle hlt := absurd hlt (Nat.not_lt.mpr hle)
  kept other _ hempty := by
    by_cases h : other = sid
    · subst h
      rw [setStream_self]
      exact hkept hempty
    · rw [setStream_of_ne _ _ h]
      exact ⟨rfl, rfl⟩
  next := Nat.le_refl _
  owner other _ := by
    by_cases h : other = sid
    · subst h
      rw [setStream_self]
      exact ⟨hpeer, halias⟩
    · rw [setStream_of_ne _ _ h]
      exact ⟨rfl, rfl⟩
  requests _ := Or.inl rfl

theorem Subscription.Drains.requests_or {sub sub' : Subscription} (h : sub.Drains sub') :
    sub'.requests = sub.requests ∨ sub'.requests = [] :=
  h.requests.imp And.left fun hdrained => hdrained.2.2

theorem Runs.closeStream {sid : Nat} (items : List Item) (state : StreamState)
    (hkept : (t.subs (t.streams sid).peer).requests = [] → items = []) :
    Runs t (t.closeStream sid items state) := by
  unfold Track.closeStream
  simp only
  split
  · refine Runs.setStream rfl rfl fun hempty => ⟨rfl, ?_⟩
    rw [hkept hempty, List.append_nil]
  · exact Runs.refl t

theorem Runs.streamClosed (t : Track) (p : Nat) : Runs t (t.streamClosed p) :=
  Runs.of_requests rfl rfl rfl fun q =>
    Subscription.Drains.requests_or (streamClosed_drains t p q)

theorem setSub_requests {p : Nat} {sub : Subscription}
    (h : sub.requests = (t.subs p).requests ∨ sub.requests = []) (q : Nat) :
    ((t.setSub p sub).subs q).requests = (t.subs q).requests ∨
      ((t.setSub p sub).subs q).requests = [] := by
  by_cases hq : q = p
  · subst hq
    rwa [setSub_self]
  · rw [setSub_of_ne _ _ hq]
    exact Or.inl rfl

theorem Runs.rangeEnded (t : Track) (p : Nat) : Runs t (t.rangeEnded p) := by
  unfold Track.rangeEnded
  simp only
  split
  · split
    · have hended : ((t.subs p).ended .subscriptionEnded).Drains
          ((t.subs p).ended .subscriptionEnded).finishRange := Subscription.Drains.finishRange _
      have hrequests := Subscription.Drains.requests_or hended
      exact Runs.of_requests rfl rfl rfl (setSub_requests hrequests)
    · exact Runs.refl t
  · refine Runs.of_requests rfl rfl rfl (setSub_requests ?_)
    exact Or.inl rfl

/-- A task that has a stream open, or begins one, works for a live request. -/
theorem Serves.alias_mem (h : t.Serves k) (hlive : k.cancelled = false)
    (hbusy : k.stream ≠ none ∨ k.pc.Begins) : k.trackAlias ∈ (t.subs k.peer).aliases := by
  obtain halias | ⟨-, -, hnone, hidle⟩ := h.alive hlive
  · exact halias
  · exact absurd hbusy (by simp [hnone, hidle])

theorem requests_ne_nil {sub : Subscription} {trackAlias : Nat} (h : trackAlias ∈ sub.aliases) :
    sub.requests ≠ [] := by
  intro hempty
  simp [Subscription.aliases, hempty] at h

/-- The peer of a task that is writing to an open stream has a live request. -/
theorem writing_requests {sid : Nat} (htask : t.TaskTracked cfg k) (hserves : t.Serves k)
    (hlive : k.cancelled = false) (hpc : k.pc.stream = some sid)
    (hopen : (t.streams sid).state = .opened) (hsession : (t.subs k.peer).closed = false) :
    (t.subs (t.streams sid).peer).requests ≠ [] := by
  have hheld := (htask.writes sid hpc).2.2 hopen hsession
  rw [(htask.known sid hheld).2]
  exact requests_ne_nil (hserves.alias_mem hlive (Or.inl (by simp [hheld])))

theorem written_append {written : List Written} {obj : Generated}
    (halias : k.trackAlias ∈ (t.subs k.peer).aliases) :
    ∀ w ∈ written ++ [(⟨k.peer, k.trackAlias, k.group, obj.object, obj.payload⟩ : Written)],
      w ∈ written ∨ w.trackAlias ∈ (t.subs w.peer).aliases := by
  intro w hw
  obtain hw | hw := List.mem_append.mp hw
  · exact Or.inl hw
  · obtain rfl := List.mem_singleton.mp hw
    exact Or.inr halias

theorem Runs.openStream (halias : k.trackAlias ∈ (t.subs k.peer).aliases) :
    Runs t (t.openStream k) where
  written w hw := Or.inl hw
  opened sid hle hlt := by
    have hlt : sid < t.nextStream + 1 := hlt
    obtain rfl : sid = t.nextStream := by omega
    rw [openStream_stream]
    exact halias
  kept sid hlt _ := by
    rw [openStream_streams t k hlt]
    exact ⟨rfl, rfl⟩
  next := Nat.le_succ _
  owner sid hlt := by
    rw [openStream_streams t k hlt]
    exact ⟨rfl, rfl⟩
  requests p := by
    rw [openStream_subs]
    exact Or.inl rfl

/-- A move writes only for a live request. -/
theorem Move.runs {roll : Option Nat} {s s' : Track × Task} (m : Move cfg roll s s')
    (htask : s.1.TaskTracked cfg s.2) (hserves : s.1.Serves s.2)
    (hlive : s.2.cancelled = false) : Runs s.1 s'.1 := by
  cases m with
  | reset =>
      simp only [Track.reset]
      split
      · exact Runs.refl _
      · simp only
        split
        · exact Runs.streamClosed ..
        · exact (Runs.closeStream [] _ fun _ => rfl).trans (Runs.streamClosed ..)
  | stop =>
      simp only [Track.stop]
      split
      · exact Runs.refl _
      · exact Runs.streamClosed ..
  | @fin t k sid items hd held =>
      refine (Runs.closeStream items _ fun hempty => ?_).trans (Runs.streamClosed ..)
      have halias := hserves.alias_mem hlive (Or.inl (by simp [held]))
      rw [(htask.known sid held).2] at hempty
      exact absurd hempty (requests_ne_nil halias)
  | @opens t k obj waiting =>
      have halias := hserves.alias_mem hlive (Or.inr (by simp [waiting, Pc.Begins]))
      exact Runs.openStream halias
  | @header t k sid obj writing opened session =>
      refine Runs.setStream rfl rfl fun hempty => ?_
      exact absurd hempty (writing_requests htask hserves hlive (by rw [writing]; rfl) opened session)
  | @object t k sid obj item rest writing opened session =>
      have hpc : k.pc.stream = some sid := by
        rw [writing]
        rfl
      have hstream : Runs t (t.setStream sid
          { t.streams sid with items := (t.streams sid).items ++ [item] }) :=
        Runs.setStream rfl rfl fun hempty =>
          absurd hempty (writing_requests htask hserves hlive hpc opened session)
      have hheld : k.stream = some sid := (htask.writes sid hpc).2.2 opened session
      have halias := hserves.alias_mem hlive (Or.inl (by simp [hheld]))
      exact ⟨⟨written_append halias, hstream.opened, hstream.kept⟩, hstream.next, hstream.owner,
        hstream.requests⟩
  | @datagram t k obj waiting =>
      have halias := hserves.alias_mem hlive (Or.inr (by simp [waiting, Pc.Begins]))
      have hsame := Runs.refl t
      exact ⟨⟨written_append halias, hsame.opened, hsame.kept⟩, hsame.next, hsame.owner,
        hsame.requests⟩
  | rangeEnded => exact Runs.rangeEnded ..
  | first sid n held => exact Runs.setStream rfl rfl fun _ => ⟨rfl, rfl⟩
  | _ => exact Runs.of_requests rfl rfl rfl fun _ => Or.inl rfl

theorem Moves.same {roll : Option Nat} {s s' : Track × Task}
    (ms : Relation.ReflTransGen (Move cfg roll) s s') : s.2.Same s'.2 := by
  induction ms with
  | refl => exact Task.Same.refl _
  | tail _ m ih => exact ih.trans m.same

/-- A stretch writes only for a live request. -/
theorem Moves.runs {roll : Option Nat} {s s' : Track × Task}
    (ms : Relation.ReflTransGen (Move cfg roll) s s')
    (htracked : (s.1.setTask i (some s.2)).Tracked cfg) (h : (s.1.setTask i (some s.2)).Ordered)
    (hheeds : Heeds roll i s.1 s.2) (hlive : s.2.cancelled = false) : Runs s.1 s'.1 := by
  have hall : Runs s.1 s'.1 ∧ Heeds roll i s'.1 s'.2 := by
    induction ms with
    | refl => exact ⟨Runs.refl _, hheeds⟩
    | @tail u v ms m ih =>
        have htask := (Tracked.moves ms htracked).inHand
        have hserves := (Ordered.moves ms htracked h hheeds).inHand
        have hlive' : u.2.cancelled = false := (Moves.same ms).cancelled.trans hlive
        exact ⟨ih.1.trans (m.runs htask hserves hlive'), ih.2.move m⟩
  exact hall.1

/-! ## Runs in order -/

/-- What holds in every run whose steps are in order. -/
structure Sound (cfg : Config) (t : Track) : Prop where
  tracked : t.Tracked cfg
  ordered : t.Ordered
  located : t.Located cfg

theorem Sound.step (hsize : 0 < cfg.groupSize) (h : t.Sound cfg) {a : Action}
    (hclear : t.Orderly cfg a) : (t.step cfg a).Sound cfg := by
  refine ⟨h.tracked.step a, ?_, ?_⟩
  · cases a with
    | addSession endsWithDone => exact Ordered.addSession h.tracked h.ordered endsWithDone
    | subscribe p msg skip =>
        simp only [Track.step]
        split
        · exact Ordered.onSubscribe h.tracked h.ordered hclear skip
        · exact h.ordered
    | update p request forward range fill skip =>
        simp only [Track.step]
        split
        · exact Ordered.onRequestUpdate h.tracked h.ordered hclear range fill skip
        · exact h.ordered
    | openFill p request =>
        simp only [Track.step, Track.openFill]
        split
        · refine h.ordered.frame ?_ (fun _ => ⟨rfl, rfl⟩) rfl
          exact ⟨rfl, rfl, rfl, fun _ => rfl, fun _ h => h, fun _ h => h⟩
        · exact h.ordered
    | cancel p request =>
        simp only [Track.step]
        split
        · exact Ordered.onRequestCancelled h.ordered hclear
        · exact h.ordered
    | run i stamp => exact Ordered.runTask hsize h.tracked h.ordered h.located hclear
    | stopSending sid =>
        simp only [Track.step]
        split
        · exact h.ordered.stopSending sid
        · exact h.ordered
    | closeSession p =>
        simp only [Track.step]
        split
        · exact h.ordered.closeSession p
        · exact h.ordered
    | endTrack => exact h.ordered.endTrack hclear
  · apply step_cases
    case peers => exact fun u hagrees => h.located.agrees hagrees
    case starts => exact fun u p skip hagrees => (h.located.agrees hagrees).startGenerating p skip
    case runs => exact fun i stamp _ => Located.runTask h.tracked h.ordered.rivals h.located i stamp

theorem Sound.start (endsWithDone : Bool) :
    ({ subs := fun _ => { endsWithDone } } : Track).Sound cfg where
  tracked := Tracked.start endsWithDone
  ordered := ⟨fun _ h => absurd h (Nat.not_lt_zero _), fun _ _ _ _ h => by simp at h,
    fun _ _ h => by simp at h⟩
  located := ⟨Standing.start endsWithDone, List.Pairwise.nil⟩

theorem sound_of_reached (hsize : 0 < cfg.groupSize) (run : Reached cfg (Orderly cfg) t) :
    t.Sound cfg := by
  induction run with
  | start endsWithDone => exact Sound.start endsWithDone
  | step run a clear ih => exact ih.step hsize clear

theorem Sound.sends_runTask {stamp : Stamp} (h : t.Sound cfg)
    (hclear : t.Orderly cfg (.run i stamp)) : Sends t (t.runTask cfg i stamp) := by
  have hmoved : ∀ k u l, t.tasks i = some k → k.cancelled = false →
      Relation.ReflTransGen (Move cfg (t.rollsTo cfg k)) (t, k) (u, l) → ∀ o,
        Sends t (u.setTask i o) := by
    intro k u l hk hlive moves o
    have hat : t.setTask i (some k) = t := setTask_eq_self hk
    have hruns : Runs t u := Moves.runs (i := i) moves (by rw [hat]; exact h.tracked)
      (by rw [hat]; exact h.ordered) (hclear k hk hlive).2 hlive
    exact ⟨hruns.written, hruns.opened, hruns.kept⟩
  apply h.tracked.runTask_cases
  case gone => exact fun _ => Sends.of_still (Still.refl t)
  case cancelled =>
    intro k hk _
    have hreset := (Agrees.reset t k).toStill
    exact Sends.of_still ⟨hreset.written, hreset.history, hreset.nextStream, hreset.streams⟩
  case awaits => exact fun k u l hk hlive moves => hmoved k u l hk hlive moves _
  case ends => exact fun k u l hk hlive moves _ => hmoved k u l hk hlive moves _

/-- A step writes only for live requests. -/
theorem Sound.sends (h : t.Sound cfg) {a : Action} (hclear : t.Orderly cfg a) :
    Sends t (t.step cfg a) := by
  apply step_cases
  case peers => exact fun u hagrees => Sends.of_still hagrees.toStill
  case starts =>
    exact fun u p skip hagrees => Sends.of_still (hagrees.toStill.trans (Still.startGenerating ..))
  case runs =>
    rintro i stamp rfl
    exact h.sends_runTask hclear

/-- A task that is told to end resets its stream when it runs. -/
theorem reset_of_cancelled {sid : Nat} (hk : t.tasks i = some k) (hcancelled : k.cancelled = true)
    (hheld : k.stream = some sid) (hopen : (t.streams sid).state = .opened)
    (hsession : (t.subs k.peer).closed = false) (stamp : Stamp) :
    ((t.runTask cfg i stamp).streams sid).state = .reset := by
  unfold Track.runTask
  rw [hk]
  simp only [hcancelled, if_true]
  show ((t.reset k).1.streams sid).state = .reset
  rw [Track.reset, hheld]
  simp only [hsession, Bool.false_eq_true, if_false]
  show ((t.closeStream sid [] .reset).streams sid).state = .reset
  rw [Track.closeStream]
  simp only [hopen, if_true, setStream_self]

theorem Sound.served (h : t.Sound cfg) : t.Served cfg where
  single i j k l hk hl hlive hlive' hpeer hsubgroup := by
    by_contra hne
    exact h.ordered.rivals i j k l hk hl hne hlive hlive' hpeer hsubgroup
  once := h.located.once
  reset sid hsid hopen hsession hempty := by
    obtain ⟨i, k, hk, hheld⟩ := h.ordered.owned sid hsid hopen hsession
    have hpeer := ((h.tracked.each i k hk).known sid hheld).2
    rw [hpeer] at hsession hempty
    have hcancelled : k.cancelled = true := by
      by_contra hlive
      have halias := (h.ordered.serves i k hk).alias_mem (by simpa using hlive)
        (Or.inl (by simp [hheld]))
      exact requests_ne_nil halias hempty
    exact ⟨i, k, hk, hcancelled, fun stamp =>
      reset_of_cancelled hk hcancelled hheld hopen hsession stamp⟩

/-- In every run whose steps are in order, a peer is served under a live subscription, each
Location once, and every step in order writes only for live requests. -/
theorem served_of_orderly (hsize : 0 < cfg.groupSize) (run : Reached cfg (Orderly cfg) t) :
    t.Served cfg ∧ ∀ a, t.Orderly cfg a → Sends t (t.step cfg a) := by
  have hsound := sound_of_reached hsize run
  exact ⟨hsound.served, fun a hclear => hsound.sends hclear⟩

/-! ## Runs of a small track -/

/-- One subgroup, two objects a group. -/
def duo : Config where
  numSubgroups := 1
  groupSize := 2
  objectSize := 8
  pad := []
  keepsHistory := false
  datagram := false

/-- What follows the start of a track of draft 20. -/
def follow (actions : List Action) : Track :=
  actions.foldl (step duo) { subs := fun _ => { endsWithDone := false } }

def subscribes (p : Nat) : Action := .subscribe p ⟨1, none, .mk 0 0, none, none, false⟩ 0

def runs (i : Nat) : Action := .run i ⟨none, fun _ => true⟩

theorem follow_append (actions : List Action) (a : Action) :
    follow (actions ++ [a]) = (follow actions).step duo a := by
  simp [follow, List.foldl_append]

/-- Every step of a run passes a check. -/
def checked (cfg : Config) (check : Track → Action → Bool) : Track → List Action → Bool
  | _, [] => true
  | t, a :: actions => check t a && checked cfg check (t.step cfg a) actions

theorem reached_of_checked {cond : Track → Action → Prop} {check : Track → Action → Bool}
    (hcheck : ∀ t a, t.Tracked cfg → check t a = true → cond t a) (actions : List Action)
    (run : Reached cfg cond t) (h : checked cfg check t actions = true) :
    Reached cfg cond (actions.foldl (step cfg) t) := by
  induction actions generalizing t with
  | nil => exact run
  | cons a actions ih =>
      obtain ⟨ha, hrest⟩ := (Bool.and_eq_true _ _).mp h
      exact ih (run.step a (hcheck t a (tracked_of_reached run) ha)) hrest

theorem reached_follow (actions : List Action) :
    Reached duo (fun _ _ => True) (follow actions) := by
  induction actions using List.reverseRecOn with
  | nil => exact .start false
  | append_singleton actions a ih =>
      rw [follow_append]
      exact ih.step a trivial

/-- No task of the peer is left. -/
def noneLeft (t : Track) (p : Nat) : Bool :=
  (List.range t.nextTask).all fun i => (t.tasks i).all fun k => k.peer ≠ p || k.cancelled

/-- A check that a step is in order. -/
def inOrder (t : Track) : Action → Bool
  | .subscribe p _ _ => t.noneLeft p
  | .cancel p request =>
      (t.subs p).requests.all (·.1 = request) &&
        ((List.range t.numSubs).all (fun q => q = p || !(t.subs q).generating) || t.noneLeft p)
  | .run i _ => (t.tasks i).all fun k => k.cancelled || !(t.subs k.peer).endsWithDone &&
      match k.pc with
      | .header _ _ true =>
          ((t.subs k.peer).firstObject k.group).isSome && k.header.all (·.last.isNone)
      | _ => true
  | .addSession _ => true
  | _ => false

theorem idle_of_noneLeft {p : Nat} (htracked : t.Tracked cfg) (h : t.noneLeft p = true) :
    t.Idle p := by
  intro i k hk hpeer
  have hi : i < t.nextTask := by
    by_contra hge
    rw [htracked.fresh i (not_lt.mp hge)] at hk
    cases hk
  have hall := List.all_eq_true.mp h i (List.mem_range.mpr hi)
  rw [hk] at hall
  simpa [hpeer] using hall

theorem orderly_of_inOrder {t : Track} {a : Action} (htracked : t.Tracked cfg)
    (h : t.inOrder a = true) : t.Orderly cfg a := by
  cases a with
  | subscribe p msg skip => exact fun _ _ => idle_of_noneLeft htracked h
  | cancel p request =>
      obtain ⟨hlast, hothers⟩ := (Bool.and_eq_true _ _).mp h
      have hleft : (t.subs p).requests.filter (·.1 ≠ request) = [] := by
        simpa [List.filter_eq_nil_iff] using hlast
      unfold Orderly
      dsimp only
      rw [if_pos hleft]
      rintro ⟨q, hq, hne, hgenerating⟩
      rcases (Bool.or_eq_true _ _).mp hothers with hnone | hidle
      · have hidle := List.all_eq_true.mp hnone q (List.mem_range.mpr hq)
        simp [hne, hgenerating] at hidle
      · exact idle_of_noneLeft htracked hidle
  | run i stamp =>
      intro k hk hlive
      simp only [inOrder] at h
      rw [hk] at h
      simp only [Option.all_some, hlive, Bool.false_or, Bool.and_eq_true, Bool.not_eq_true'] at h
      obtain ⟨hends, hhead⟩ := h
      refine ⟨fun sid obj hpc huncodable => ?_, fun group _ hended => by simp [hends] at hended⟩
      rw [hpc] at hhead
      obtain ⟨hfirst, hlast⟩ := (Bool.and_eq_true _ _).mp hhead
      obtain ⟨start, hstart⟩ := Option.isSome_iff_exists.mp hfirst
      obtain ⟨-, huncodable⟩ := huncodable
      have hnone : ∀ object, ¬ Uncodable k object := by
        rintro object ⟨-, hd, hheader, id, -, hlt⟩
        have hnew : hd.last = none := by
          have hheader : k.header = some hd := hheader
          simpa [hheader] using hlast
        simp [Header.nextObjectId, hnew] at hlt
      rw [hstart] at huncodable
      dsimp only at huncodable
      split at huncodable <;> exact hnone _ huncodable
  | addSession => trivial
  | update | openFill | stopSending | closeSession | endTrack => cases h

/-- A peer is served and leaves; another joins and is served; then the first comes back. -/
def rejoins : List Action :=
  [.addSession false, subscribes 0] ++ List.replicate 6 (runs 0) ++
    [.cancel 0 1, runs 0, subscribes 1] ++ List.replicate 5 (runs 1) ++
    [subscribes 0] ++ List.replicate 5 (runs 2)

theorem served_of_orderly_sending :
    (follow rejoins).written.map (fun w => (w.peer, w.group, w.object)) =
        [(0, 0, 0), (1, 1, 0), (0, 2, 0)] ∧
      (follow rejoins).Served duo :=
  ⟨by decide +kernel, (served_of_orderly (by decide)
    (reached_of_checked (fun t a htracked => orderly_of_inOrder htracked) rejoins (.start false)
      (by decide +kernel))).1⟩

/-- The first peer leaves while the second goes on: its task is not told to end, and writes
an object for the request that is gone. -/
def leaves : List Action :=
  [.addSession false, subscribes 0, subscribes 1, runs 0, runs 0, runs 0, runs 0, .cancel 0 1]

theorem not_served_of_leave : ¬ ∀ (cfg : Config) (t : Track), 0 < cfg.groupSize →
    Reached cfg (fun _ _ => True) t → t.Served cfg ∧ ∀ a, Sends t (t.step cfg a) := by
  intro h
  have hsends := (h duo (follow leaves) (by decide) (reached_follow leaves)).2 (runs 0)
  have hempty : ((follow leaves).subs 0).aliases = [] := rfl
  obtain ⟨w, hwritten, hpeer⟩ :
      ∃ w, ((follow leaves).step duo (runs 0)).written = [w] ∧ w.peer = 0 := ⟨_, rfl, rfl⟩
  obtain hold | halias := hsends.written w (by simp [hwritten])
  · rw [show (follow leaves).written = [] from rfl] at hold
    simp at hold
  · rw [hpeer, hempty] at halias
    simp at halias

end Track

end AioMoqt.Publisher
