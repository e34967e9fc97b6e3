import AioMoqt.Publisher.Proofs.Producers.Events

/-!
# Peers that keep the order

The condition on a step under which the tasks of a generated track go on serving live
subscriptions, and that the events of the peers then keep the order.
-/

namespace AioMoqt.Publisher

open AioMoqt.Lib AioMoqt.Messages

namespace Track

/-! ## The condition -/

/-- Every task of the peer is told to end. -/
def Idle (t : Track) (p : Nat) : Prop :=
  ∀ i k, t.tasks i = some k → k.peer = p → k.cancelled = true

/-- A SUBSCRIBE is bound: its End Group is not behind Largest where that ends a
subscription, and the track has not ended for this peer. -/
def Accepts (t : Track) (p : Nat) (msg : Subscribe) : Prop :=
  ¬ ((t.subs p).endsWithDone ∧ ∃ last ∈ msg.endGroup, ∃ loc ∈ t.largest, last < loc.group) ∧
    (t.subs p).finished = false

/-- A step is in order: production starts for a peer, or a new subscription takes over from
one that is done, only when no task of the peer is left, and then for a live request; the
last request of a peer goes only when its tasks are told to end, an earlier one only when
none of them works for it; the head of a stream can be coded; a range ends only when no
other task of the peer begins anything; and the end of the track reaches every task. -/
def Orderly (cfg : Config) (t : Track) : Action → Prop
  | .subscribe p msg _ =>
      t.Accepts p msg →
        (t.subs p).window = .done ∨ msg.forward.getD true ∧ (t.subs p).generating = false →
          t.Idle p
  | .update p request forward _ _ _ =>
      request ∈ (t.subs p).requests.map Prod.fst → forward = some true →
        (t.subs p).finished = false → (t.subs p).generating = false →
          t.Idle p ∧ (t.subs p).trackAlias ∈ (t.subs p).aliases
  | .cancel p request =>
      let left := (t.subs p).requests.filter (·.1 ≠ request)
      if left = [] then (∃ q < t.numSubs, q ≠ p ∧ (t.subs q).generating) → t.Idle p
      else ∀ i k, t.tasks i = some k → k.peer = p → k.cancelled = false →
        k.trackAlias ∈ left.map Prod.snd
  | .run i _ =>
      ∀ k, t.tasks i = some k → k.cancelled = false →
        (∀ sid obj, k.pc = .header sid obj true → ¬ t.HeadUncodable cfg k obj) ∧
          Heeds (t.rollsTo cfg k) i t k
  | .endTrack =>
      (∃ p < t.numSubs, (t.subs p).window.IsRange) →
        ∀ p < t.numSubs, (t.subs p).window.IsRange ∨ (t.subs p).generating = false
  | _ => True

theorem Idle.agrees {t t' : Track} {p : Nat} (h : t.Idle p) (hagrees : Agrees t t') :
    t'.Idle p := by
  intro i k hk hp
  by_contra hlive
  obtain ⟨l, hl, halike⟩ := hagrees.tasks i k hk (by simpa using hlive)
  have hcancelled := h i l hl (halike.peer ▸ hp)
  rw [← halike.cancelled] at hcancelled
  exact hlive hcancelled

/-! ## Cuts -/

section Events

variable {cfg : Config} {t : Track} {p : Nat}

theorem Ordered.cutTask (htracked : t.Tracked cfg) (h : t.Ordered) (p i : Nat) :
    (t.cutTask p i).Ordered := by
  unfold Track.cutTask
  split
  · exact h
  next k hk =>
      have hat : (t.setTask i (some k)).Ordered := by rwa [setTask_eq_self hk]
      have htracked : (t.setTask i (some k)).Tracked cfg := by rwa [setTask_eq_self hk]
      split
      · split
        · exact Ordered.reset htracked hat
        · exact h
      · exact h

theorem Ordered.cutStreams (htracked : t.Tracked cfg) (h : t.Ordered) (p : Nat) :
    (t.cutStreams p).Ordered := by
  have hboth : (t.cutStreams p).Tracked cfg ∧ (t.cutStreams p).Ordered :=
    List.foldlRecOn (motive := fun u : Track => u.Tracked cfg ∧ u.Ordered) _ _ ⟨htracked, h⟩
      fun _ hu i _ => ⟨hu.1.cutTask p i, Ordered.cutTask hu.1 hu.2 p i⟩
  exact hboth.2

theorem Ordered.setForward (htracked : t.Tracked cfg) (h : t.Ordered) (p : Nat)
    (forward : Option Bool) : (t.setForward p forward).Ordered := by
  cases forward with
  | none => exact h
  | some forward =>
      have hsub : (t.setSub p { t.subs p with forward }).Ordered :=
        h.frame (Frame.setSub t _ _ rfl) (stands_setSub rfl rfl) rfl
      have htracked : (t.setSub p { t.subs p with forward }).Tracked cfg :=
        Tracked.setSub htracked rfl rfl
      exact Ordered.cutStreams htracked hsub p

theorem Ordered.startFill (h : t.Ordered) (p request : Nat) (fill : Bool) :
    (t.startFill p request fill).Ordered := by
  unfold Track.startFill
  simp only
  split
  · have hframe :=
      Frame.setSub t p { t.subs p with fillStreams := (t.subs p).fillStreams + 1 } rfl
    exact h.frame ⟨rfl, rfl, rfl, fun _ => rfl, fun _ h => h, hframe.closed⟩
      (stands_setSub rfl rfl) rfl
  · exact h

/-! ## What a cut leaves of a subscription -/

end Events

end Track

/-- Streams of a subscription closed, which may have ended it. -/
structure Subscription.Drains (sub sub' : Subscription) : Prop where
  trackAlias : sub'.trackAlias = sub.trackAlias
  forward : sub'.forward = sub.forward
  generating : sub'.generating = sub.generating
  finished : sub.finished = true → sub'.finished = true
  requests : sub'.requests = sub.requests ∧ sub'.window = sub.window ∨
    sub.window = .ended ∧ sub'.window = .done ∧ sub'.requests = []

theorem Subscription.Drains.refl (sub : Subscription) : sub.Drains sub :=
  ⟨rfl, rfl, rfl, id, Or.inl ⟨rfl, rfl⟩⟩

theorem Subscription.Drains.trans {sub sub' sub'' : Subscription} (h : sub.Drains sub')
    (h' : sub'.Drains sub'') : sub.Drains sub'' where
  trackAlias := h'.trackAlias.trans h.trackAlias
  forward := h'.forward.trans h.forward
  generating := h'.generating.trans h.generating
  finished hfin := h'.finished (h.finished hfin)
  requests := by
    obtain ⟨hreq, hwin⟩ | ⟨hended, hdone, hempty⟩ := h.requests
    · rw [← hreq, ← hwin]
      exact h'.requests
    · obtain ⟨hreq', hwin'⟩ | ⟨hended', -, -⟩ := h'.requests
      · exact Or.inr ⟨hended, hwin'.trans hdone, hreq'.trans hempty⟩
      · simp [hdone] at hended'

theorem Subscription.Drains.finishRange (sub : Subscription) : sub.Drains sub.finishRange := by
  unfold Subscription.finishRange
  split
  next hdrained =>
      simp only [Subscription.drained, Bool.and_eq_true, decide_eq_true_eq] at hdrained
      refine ⟨rfl, rfl, rfl, fun hfin => ?_, Or.inr ⟨hdrained.1, rfl, rfl⟩⟩
      simp [hfin]
  · exact Subscription.Drains.refl sub

/-- A window that has not ended stays, with the requests. -/
theorem Subscription.Drains.of_range {sub sub' : Subscription} (h : sub.Drains sub')
    (hrange : sub.window.IsRange) : sub'.requests = sub.requests ∧ sub'.window = sub.window := by
  obtain hsame | ⟨hended, -, -⟩ := h.requests
  · exact hsame
  · rw [hended] at hrange
    exact hrange.elim

namespace Track

section Events

variable {cfg : Config} {t : Track} {p : Nat}

theorem streamClosed_drains (t : Track) (p q : Nat) :
    (t.subs q).Drains ((t.streamClosed p).subs q) := by
  show (t.subs q).Drains ((t.setSub p (t.subs p).streamClosed.finishRange).subs q)
  by_cases hq : q = p
  · subst hq
    rw [setSub_self]
    have hclosed : (t.subs q).Drains (t.subs q).streamClosed :=
      ⟨rfl, rfl, rfl, id, Or.inl ⟨rfl, rfl⟩⟩
    exact hclosed.trans (Subscription.Drains.finishRange _)
  · rw [setSub_of_ne _ _ hq]
    exact Subscription.Drains.refl _

theorem reset_drains (t : Track) (k : Task) (q : Nat) :
    (t.subs q).Drains ((t.reset k).1.subs q) := by
  unfold Track.reset
  split
  · exact Subscription.Drains.refl _
  next sid hheld =>
      simp only
      split
      · exact streamClosed_drains ..
      · have hclosed := streamClosed_drains (t.closeStream sid [] .reset) k.peer q
        rwa [closeStream_subs] at hclosed

theorem cutStreams_drains (t : Track) (p q : Nat) :
    (t.subs q).Drains ((t.cutStreams p).subs q) := by
  refine List.foldlRecOn (motive := fun u : Track => (t.subs q).Drains (u.subs q)) _ _
    (Subscription.Drains.refl _) fun u hu i _ => hu.trans ?_
  unfold Track.cutTask
  split
  · exact Subscription.Drains.refl _
  · split
    · split
      · exact reset_drains ..
      · exact Subscription.Drains.refl _
    · exact Subscription.Drains.refl _

theorem setForward_drains (t : Track) (p : Nat) (forward : Bool) :
    Subscription.Drains { t.subs p with forward } ((t.setForward p (some forward)).subs p) := by
  have hcut := cutStreams_drains (t.setSub p { t.subs p with forward }) p p
  rwa [setSub_self] at hcut

theorem startFill_drains (t : Track) (p request : Nat) (fill : Bool) (q : Nat) :
    (t.subs q).Drains ((t.startFill p request fill).subs q) := by
  unfold Track.startFill
  simp only
  split
  · show (t.subs q).Drains ((t.setSub p _).subs q)
    by_cases hq : q = p
    · subst hq
      rw [setSub_self]
      exact ⟨rfl, rfl, rfl, id, Or.inl ⟨rfl, rfl⟩⟩
    · rw [setSub_of_ne _ _ hq]
      exact Subscription.Drains.refl _
  · exact Subscription.Drains.refl _

/-! ## Production starts -/

/-- New tasks are spawned for a peer that has none. -/
theorem Ordered.spawnProducers {trackAlias : Nat} (htracked : t.Tracked cfg) (h : t.Ordered)
    (hidle : t.Idle p) (halias : trackAlias ∈ (t.subs p).aliases ∨
      (t.subs p).window = .done ∧ (t.subs p).requests = []) (skip : Nat) :
    (t.spawnProducers cfg p trackAlias skip).Ordered where
  owned sid hsid hopen hclosed := by
    obtain ⟨i, k, hk, hheld⟩ := h.owned sid hsid hopen hclosed
    refine ⟨i, k, ?_, hheld⟩
    have hi : i < t.nextTask := by
      by_contra hi
      rw [htracked.fresh i (Nat.not_lt.mp hi)] at hk
      simp at hk
    rw [spawnProducers_tasks, if_neg (by omega)]
    exact hk
  rivals i j k l hk hl hne hlive hlive' hpeer := by
    obtain ⟨hi, -, rfl⟩ | hk := spawnProducers_eq_some hk
    · obtain ⟨hj, -, rfl⟩ | hl := spawnProducers_eq_some hl
      · show i - t.nextTask ≠ j - t.nextTask
        omega
      · have hcancelled := hidle j l hl hpeer.symm
        simp [hlive'] at hcancelled
    · obtain ⟨-, -, rfl⟩ | hl := spawnProducers_eq_some hl
      · have hcancelled := hidle i k hk hpeer
        simp [hlive] at hcancelled
      · exact h.rivals i j k l hk hl hne hlive hlive' hpeer
  serves i k hk := by
    obtain ⟨-, -, rfl⟩ | hk := spawnProducers_eq_some hk
    · constructor
      · intro _
        obtain halias | ⟨hdone, hempty⟩ := halias
        · exact Or.inl halias
        · exact Or.inr ⟨hdone, hempty, rfl, fun h => h⟩
      · exact fun _ _ h => h
    · exact (h.serves i k hk).stands fun _ => ⟨rfl, rfl⟩

theorem Ordered.startGenerating (htracked : t.Tracked cfg) (h : t.Ordered)
    (hstart : (t.subs p).finished = false → (t.subs p).generating = false →
      t.Idle p ∧ ((t.subs p).trackAlias ∈ (t.subs p).aliases ∨
        (t.subs p).window = .done ∧ (t.subs p).requests = [])) (skip : Nat) :
    (t.startGenerating cfg p skip).Ordered := by
  unfold Track.startGenerating
  simp only
  split
  · exact h
  next hstarts =>
      push Not at hstarts
      obtain ⟨hidle, halias⟩ := hstart (by simpa using hstarts.1) (by simpa using hstarts.2)
      have hsub : (t.setSub p { t.subs p with generating := true }).Ordered :=
        h.frame (Frame.setSub t _ _ rfl) (stands_setSub rfl rfl) rfl
      have htracked : (t.setSub p { t.subs p with generating := true }).Tracked cfg :=
        Tracked.setSub htracked rfl rfl
      refine Ordered.spawnProducers htracked hsub hidle ?_ skip
      rw [setSub_self]
      exact halias

/-! ## Requests -/

/-- What a SUBSCRIBE makes of its peer's entry. -/
def subscribed (t : Track) (p : Nat) (msg : Subscribe) : Subscription :=
  { t.subs p with
    trackAlias := (t.subs p).nextAlias
    nextAlias := (t.subs p).nextAlias + 1
    subscribeRequest := some msg.request
    requests := (t.subs p).requests ++ [(msg.request, (t.subs p).nextAlias)]
    window := .range msg.start msg.endGroup msg.endObject }

/-- What a SUBSCRIBE leaves before production starts. -/
def forwarded (t : Track) (p : Nat) (msg : Subscribe) : Track :=
  ((t.setSub p (t.subscribed p msg)).setForward p (some (msg.forward.getD true))).startFill p
    msg.request msg.fill

theorem onSubscribe_of_accepts {msg : Subscribe} (h : t.Accepts p msg) (skip : Nat) :
    t.onSubscribe cfg p msg skip =
      if ((t.forwarded p msg).subs p).forward then
        (t.forwarded p msg).startGenerating cfg p skip
      else t.forwarded p msg := by
  unfold Track.onSubscribe
  simp only
  rw [if_neg h.1, if_neg (by simp [h.2])]
  rfl

theorem onSubscribe_of_not_accepts {msg : Subscribe} (h : ¬ t.Accepts p msg) (skip : Nat) :
    t.onSubscribe cfg p msg skip = t ∨
      t.onSubscribe cfg p msg skip =
        t.setSub p { t.subs p with nextAlias := (t.subs p).nextAlias + 1 } := by
  unfold Track.onSubscribe
  simp only
  split
  · exact Or.inl rfl
  next hbehind =>
      have hfinished : (t.subs p).finished = true := by
        by_contra hnot
        exact h ⟨hbehind, by simpa using hnot⟩
      rw [if_pos hfinished]
      exact Or.inr rfl

theorem forwarded_subs (t : Track) (p : Nat) (msg : Subscribe) :
    Subscription.Drains { t.subscribed p msg with forward := msg.forward.getD true }
      ((t.forwarded p msg).subs p) := by
  refine Subscription.Drains.trans ?_ (startFill_drains _ p msg.request msg.fill p)
  have hset := setForward_drains (t.setSub p (t.subscribed p msg)) p (msg.forward.getD true)
  rwa [setSub_self] at hset

theorem forwarded_agrees (t : Track) (p : Nat) (msg : Subscribe) :
    Agrees t (t.forwarded p msg) := by
  have hsub : Agrees t (t.setSub p (t.subscribed p msg)) := Agrees.ofSubs rfl rfl rfl rfl rfl rfl
  exact (hsub.trans (Agrees.setForward _ p _)).trans (Agrees.startFill ..)

theorem Ordered.onSubscribe (htracked : t.Tracked cfg) (h : t.Ordered) {msg : Subscribe}
    (hclear : t.Accepts p msg →
      (t.subs p).window = .done ∨ msg.forward.getD true ∧ (t.subs p).generating = false →
        t.Idle p) (skip : Nat) : (t.onSubscribe cfg p msg skip).Ordered := by
  by_cases haccepts : t.Accepts p msg
  swap
  · obtain hsame | hrefused : t.onSubscribe cfg p msg skip = t ∨ _ :=
      onSubscribe_of_not_accepts haccepts skip
    · rwa [hsame]
    · rw [hrefused]
      exact h.frame (Frame.setSub t _ _ rfl) (stands_setSub rfl rfl) rfl
  have hclear := hclear haccepts
  have hsub : (t.setSub p (t.subscribed p msg)).Ordered := by
    refine h.setSub rfl ?_
    intro i k hk hp hold
    constructor
    · intro hlive
      obtain halias | ⟨hdone, -, -, -⟩ := hold.alive hlive
      · left
        rw [hp, setSub_self]
        rw [hp] at halias
        simp only [Subscription.aliases, subscribed, List.map_append, List.mem_append]
        exact Or.inl halias
      · have hcancelled := hclear (Or.inl (hp ▸ hdone)) i k hk hp
        simp [hlive] at hcancelled
    · intro _ hended
      rw [hp, setSub_self] at hended
      simp [subscribed] at hended
  have htracked' : (t.setSub p (t.subscribed p msg)).Tracked cfg := Tracked.setSub htracked rfl rfl
  have hforwarded : (t.forwarded p msg).Ordered :=
    Ordered.startFill (Ordered.setForward htracked' hsub p _) ..
  have htracked'' : (t.forwarded p msg).Tracked cfg :=
    Tracked.startFill (Tracked.setForward htracked' p _) ..
  have hdrains := forwarded_subs t p msg
  rw [onSubscribe_of_accepts haccepts]
  split
  next hforward =>
      refine Ordered.startGenerating htracked'' hforwarded ?_ skip
      intro _ hgenerating
      rw [hdrains.forward] at hforward
      rw [hdrains.generating] at hgenerating
      refine ⟨Idle.agrees (hclear (Or.inr ⟨hforward, hgenerating⟩)) (forwarded_agrees t p msg), ?_⟩
      left
      rw [Subscription.aliases, (hdrains.of_range trivial).1, hdrains.trackAlias]
      simp [subscribed]
  · exact hforwarded

/-- The streams of a peer are filtered and cut. -/
theorem Ordered.filtered (htracked : t.Tracked cfg) (h : t.Ordered)
    (hbound : (t.subs p).requests ≠ [])
    (range : Option (Location × Option Nat × Option Nat)) : (t.filtered p range).Ordered := by
  unfold Track.filtered
  split
  · exact h
  · exact Ordered.cutStreams htracked h p
  · exact Ordered.cutStreams htracked h p
  next start endGroup endObject _ _ =>
      have htracked' : (t.setSub p
          { t.subs p with window := .range start endGroup endObject }).Tracked cfg :=
        Tracked.setSub htracked rfl rfl
      refine Ordered.cutStreams htracked' (h.setSub rfl ?_) p
      intro i k hk hp hold
      constructor
      · intro hlive
        obtain halias | ⟨-, hempty, -, -⟩ := hold.alive hlive
        · left
          rw [hp, setSub_self]
          rwa [hp] at halias
        · exact absurd (hp ▸ hempty) hbound
      · intro _ hended
        rw [hp, setSub_self] at hended
        simp at hended

/-- What an update leaves before production starts. -/
def updated (t : Track) (p request : Nat) (forward : Option Bool)
    (range : Option (Location × Option Nat × Option Nat)) (fill : Bool) : Track :=
  ((t.filtered p range).setForward p forward).startFill p request fill

theorem updated_agrees (t : Track) (p request : Nat) (forward : Option Bool)
    (range : Option (Location × Option Nat × Option Nat)) (fill : Bool) :
    Agrees t (t.updated p request forward range fill) :=
  ((Agrees.filtered t p range).trans (Agrees.setForward _ p forward)).trans (Agrees.startFill ..)

/-- The window and the Forward State apart, an update drains the subscription. -/
theorem updated_drains (t : Track) (p request : Nat) (forward : Option Bool)
    (range : Option (Location × Option Nat × Option Nat)) (fill : Bool) :
    ∃ window forward', Subscription.Drains { t.subs p with window, forward := forward' }
      ((t.updated p request forward range fill).subs p) := by
  have hfiltered : ∃ window, Subscription.Drains { t.subs p with window }
      ((t.filtered p range).subs p) := by
    unfold Track.filtered
    split
    · exact ⟨_, Subscription.Drains.refl _⟩
    · exact ⟨_, cutStreams_drains t p p⟩
    · exact ⟨_, cutStreams_drains t p p⟩
    next start endGroup endObject _ _ =>
        have hcut := cutStreams_drains (t.setSub p
          { t.subs p with window := .range start endGroup endObject }) p p
        rw [setSub_self] at hcut
        exact ⟨_, hcut⟩
  obtain ⟨window, hfiltered⟩ := hfiltered
  cases forward with
  | none => exact ⟨window, _, hfiltered.trans (startFill_drains ..)⟩
  | some forward =>
      refine ⟨window, forward, Subscription.Drains.trans ?_ (startFill_drains ..)⟩
      refine Subscription.Drains.trans ?_ (setForward_drains _ p forward)
      exact ⟨hfiltered.trackAlias, rfl, hfiltered.generating, hfiltered.finished,
        hfiltered.requests⟩

theorem Ordered.onRequestUpdate {request : Nat} {forward : Option Bool} (htracked : t.Tracked cfg)
    (h : t.Ordered)
    (hclear : request ∈ (t.subs p).requests.map Prod.fst → forward = some true →
      (t.subs p).finished = false → (t.subs p).generating = false →
        t.Idle p ∧ (t.subs p).trackAlias ∈ (t.subs p).aliases)
    (range : Option (Location × Option Nat × Option Nat)) (fill : Bool) (skip : Nat) :
    (t.onRequestUpdate cfg p request forward range fill skip).Ordered := by
  unfold Track.onRequestUpdate
  simp only
  split
  swap
  · exact h
  next hmem =>
      have hbound : (t.subs p).requests ≠ [] := by
        intro hempty
        simp [hempty] at hmem
      have hupdated : (t.updated p request forward range fill).Ordered :=
        Ordered.startFill (Ordered.setForward (htracked.filtered p range)
          (Ordered.filtered htracked h hbound range) p forward) ..
      have htracked' : (t.updated p request forward range fill).Tracked cfg :=
        Tracked.startFill (Tracked.setForward (htracked.filtered p range) p forward) ..
      split
      swap
      · exact hupdated
      next hforward =>
          obtain ⟨window, forward', hdrains⟩ := updated_drains t p request forward range fill
          refine Ordered.startGenerating htracked' hupdated ?_ skip
          intro hfinished hgenerating
          have hnot : (t.subs p).finished = false := by
            by_contra hfin
            have hfin := hdrains.finished (by simpa using hfin)
            simp [hfinished] at hfin
          obtain ⟨hidle, halias⟩ := hclear hmem hforward hnot (hdrains.generating ▸ hgenerating)
          refine ⟨hidle.agrees (updated_agrees ..), ?_⟩
          obtain ⟨hrequests, -⟩ | ⟨-, hdone, hempty⟩ := hdrains.requests
          · left
            rw [Subscription.aliases, hrequests, hdrains.trackAlias]
            exact halias
          · exact Or.inr ⟨hdone, hempty⟩

/-- Every open stream has a task. -/
def Owned (t : Track) : Prop :=
  ∀ sid < t.nextStream, (t.streams sid).state = .opened →
    (t.subs (t.streams sid).peer).closed = false →
      ∃ i k, t.tasks i = some k ∧ k.stream = some sid

/-- Once every task is told to end, nothing more is asked of them. -/
theorem Ordered.ofCancelled (howned : t.Owned)
    (hall : ∀ i k, t.tasks i = some k → k.cancelled = true) : t.Ordered where
  owned := howned
  rivals i _ k _ hk _ _ hlive := by simp [hall i k hk] at hlive
  serves i k hk := by
    constructor
    · intro hlive
      simp [hall i k hk] at hlive
    · intro hlive
      simp [hall i k hk] at hlive

theorem Owned.frame {t' : Track} (h : t.Owned) (f : Frame t t')
    (htasks : ∀ i k, t.tasks i = some k → ∃ k', t'.tasks i = some k' ∧ k'.stream = k.stream) :
    t'.Owned := by
  intro sid hsid hopen hclosed
  rw [f.peer] at hclosed
  obtain ⟨i, k, hk, hheld⟩ :=
    h sid (f.nextStream ▸ hsid) (f.state sid hopen) (f.closed _ hclosed)
  obtain ⟨k', hk', hstream⟩ := htasks i k hk
  exact ⟨i, k', hk', hstream.trans hheld⟩

theorem Owned.cancelAll (h : t.Owned) : t.cancelAll.Owned := by
  refine h.frame ⟨rfl, rfl, rfl, fun _ => rfl, fun _ h => h, fun _ h => h⟩ ?_
  intro i k hk
  exact ⟨{ k with cancelled := true }, by simp [Track.cancelAll, hk], rfl⟩

theorem cancelAll_cancelled (t : Track) {i : Nat} {k : Task} (hk : t.cancelAll.tasks i = some k) :
    k.cancelled = true := by
  obtain ⟨l, -, rfl⟩ := cancelAll_eq_some hk
  rfl

/-- The tasks of a peer that is idle serve whatever its subscription becomes. -/
theorem Ordered.setSub_of_idle {sub : Subscription} (h : t.Ordered) (hidle : t.Idle p)
    (hclosed : sub.closed = (t.subs p).closed) : (t.setSub p sub).Ordered := by
  refine h.setSub hclosed ?_
  intro i k hk hp _
  have hcancelled := hidle i k hk hp
  constructor
  · intro hlive
    simp [hcancelled] at hlive
  · intro hlive
    simp [hcancelled] at hlive

/-- The entry of a peer once its last request is gone. -/
def gone (t : Track) (p request : Nat) : Subscription :=
  { t.subs p with
    requests := (t.subs p).requests.filter (·.1 ≠ request)
    generating := false }

theorem left_setSub (t : Track) (p request : Nat) :
    (t.left p request).setSub p { (t.left p request).subs p with generating := false } =
      { t.setSub p (t.gone p request) with fills := t.fills.filter (·.1 ≠ p) } := by
  simp [Track.left, Track.setSub, gone]

theorem Ordered.onRequestCancelled {request : Nat} (h : t.Ordered)
    (hclear : Orderly cfg t (.cancel p request)) : (t.onRequestCancelled p request).Ordered := by
  have hrequests : ((t.left p request).subs p).requests =
      (t.subs p).requests.filter (·.1 ≠ request) := by
    simp [Track.left]
  unfold Orderly at hclear
  simp only at hclear
  rw [onRequestCancelled_eq, hrequests]
  split
  next hempty =>
      rw [if_pos hempty] at hclear
      rw [stopProducing_eq, left_setSub]
      split
      next hothers =>
          -- Another peer goes on, so the tasks of this one have to be gone already.
          obtain ⟨q, hq, hgenerating⟩ := hothers
          have hne : q ≠ p := by
            rintro rfl
            simp [gone] at hgenerating
          have hidle := hclear ⟨q, hq, hne, by rwa [setSub_of_ne _ _ hne] at hgenerating⟩
          have hset : (t.setSub p (t.gone p request)).Ordered := h.setSub_of_idle hidle rfl
          exact hset.frame ⟨rfl, rfl, rfl, fun _ => rfl, fun _ h => h, fun _ h => h⟩
            (fun _ => ⟨rfl, rfl⟩) rfl
      · apply Ordered.ofCancelled
        · apply Owned.cancelAll
          have hframe := Frame.setSub t p (t.gone p request) rfl
          exact Owned.frame h.owned ⟨rfl, rfl, rfl, hframe.peer, hframe.state, hframe.closed⟩
            fun i k hk => ⟨k, hk, rfl⟩
        · exact fun _ _ hk => cancelAll_cancelled _ hk
  next hsome =>
      rw [if_neg hsome] at hclear
      have hset : (t.setSub p { t.subs p with
          requests := (t.subs p).requests.filter (·.1 ≠ request) }).Ordered := by
        refine h.setSub rfl ?_
        intro i k hk hp hold
        constructor
        · intro hlive
          left
          rw [hp, setSub_self]
          exact hclear i k hk hp hlive
        · rw [hp, setSub_self]
          rw [← hp]
          exact hold.ended
      exact hset.frame ⟨rfl, rfl, rfl, fun _ => rfl, fun _ h => h, fun _ h => h⟩
        (fun _ => ⟨rfl, rfl⟩) rfl

/-! ## The end of the track -/

theorem Owned.stopProducing (h : t.Owned) (p : Nat) : (t.stopProducing p).Owned := by
  have hset : (t.setSub p { t.subs p with generating := false }).Owned :=
    h.frame (Frame.setSub t _ _ rfl) fun i k hk => ⟨k, hk, rfl⟩
  rw [stopProducing_eq]
  split
  · exact hset
  · exact hset.cancelAll

theorem Owned.endSubscription (h : t.Owned) (p : Nat) : (t.endSubscription p).Owned := by
  unfold Track.endSubscription
  split
  · have hended : (t.setSub p ((t.subs p).ended .trackEnded)).Owned :=
      h.frame (Frame.setSub t _ _ rfl) fun i k hk => ⟨k, hk, rfl⟩
    refine (hended.stopProducing p).frame ?_ fun i k hk => ⟨k, hk, rfl⟩
    have hframe := Frame.setSub
      ((t.setSub p ((t.subs p).ended .trackEnded)).stopProducing p) p
      (((t.setSub p ((t.subs p).ended .trackEnded)).stopProducing p).subs p).finishRange
      (finishRange_closed _)
    exact ⟨rfl, rfl, rfl, hframe.peer, hframe.state, hframe.closed⟩
  · exact h

theorem Owned.endTrack (h : t.Owned) : t.endTrack.Owned :=
  List.foldlRecOn (motive := fun u : Track => u.Owned) _ _ h
    fun _ hu p _ => hu.endSubscription p

theorem endSubscription_of_mark (h : ¬ (t.subs p).window.IsRange) : t.endSubscription p = t := by
  unfold Track.endSubscription
  split
  next hwindow =>
      rw [hwindow] at h
      exact absurd trivial h
  · rfl

theorem stopProducing_numSubs (t : Track) (p : Nat) :
    (t.stopProducing p).numSubs = t.numSubs := by
  rw [stopProducing_eq]
  split <;> rfl

theorem endSubscription_numSubs (t : Track) (p : Nat) :
    (t.endSubscription p).numSubs = t.numSubs := by
  unfold Track.endSubscription
  split
  · exact stopProducing_numSubs ..
  · rfl

theorem stopProducing_subs_self (t : Track) (p : Nat) :
    (t.stopProducing p).subs p = { t.subs p with generating := false } := by
  rw [stopProducing_eq]
  split
  · exact setSub_self ..
  · exact setSub_self ..

theorem stopProducing_subs_of_ne (t : Track) {p q : Nat} (h : q ≠ p) :
    (t.stopProducing p).subs q = t.subs q := by
  rw [stopProducing_eq]
  split
  · exact setSub_of_ne _ _ h
  · exact setSub_of_ne _ _ h

theorem endSubscription_subs_of_ne (t : Track) {p q : Nat} (h : q ≠ p) :
    (t.endSubscription p).subs q = t.subs q := by
  unfold Track.endSubscription
  split
  · show ((Track.setSub _ p _).subs q) = _
    rw [setSub_of_ne _ _ h, stopProducing_subs_of_ne _ h, setSub_of_ne _ _ h]
  · rfl

/-- The peer's subscription is over. -/
theorem endSubscription_subs_self (t : Track) (p : Nat) :
    ¬ ((t.endSubscription p).subs p).window.IsRange ∧
      ((t.subs p).window.IsRange → ((t.endSubscription p).subs p).generating = false) := by
  by_cases hrange : (t.subs p).window.IsRange
  swap
  · rw [endSubscription_of_mark hrange]
    exact ⟨hrange, fun h => absurd h hrange⟩
  · unfold Track.endSubscription
    split
    · show ¬ ((Track.setSub _ p _).subs p).window.IsRange ∧
        (_ → ((Track.setSub _ p _).subs p).generating = false)
      rw [setSub_self, stopProducing_subs_self, setSub_self]
      unfold Subscription.finishRange
      split
      · exact ⟨id, fun _ => rfl⟩
      · exact ⟨id, fun _ => rfl⟩
    next hwindow =>
        cases hw : (t.subs p).window with
        | range start endGroup endObject => exact absurd hw (hwindow start endGroup endObject)
        | ended => simp [hw, Window.IsRange] at hrange
        | done => simp [hw, Window.IsRange] at hrange

/-- Ending the last peer that generates tells every task to end. -/
theorem endSubscription_tasks (hrange : (t.subs p).window.IsRange)
    (hothers : ∀ q < t.numSubs, q ≠ p → (t.subs q).generating = false) :
    ∀ i k, (t.endSubscription p).tasks i = some k → k.cancelled = true := by
  intro i k hk
  unfold Track.endSubscription at hk
  split at hk
  · have hall : ¬ ∃ q < (t.setSub p ((t.subs p).ended .trackEnded)).numSubs,
        (((t.setSub p ((t.subs p).ended .trackEnded)).setSub p
          { (t.setSub p ((t.subs p).ended .trackEnded)).subs p with generating := false }).subs
            q).generating = true := by
      rintro ⟨q, hq, hgenerating⟩
      by_cases hqp : q = p
      · subst hqp
        simp at hgenerating
      · rw [setSub_of_ne _ _ hqp, setSub_of_ne _ _ hqp, hothers q hq hqp] at hgenerating
        simp at hgenerating
    have hstopped : ((t.setSub p ((t.subs p).ended .trackEnded)).stopProducing p).tasks i =
        some k := hk
    rw [stopProducing_eq, if_neg hall] at hstopped
    exact cancelAll_cancelled _ hstopped
  next hwindow =>
      cases hw : (t.subs p).window with
      | range start endGroup endObject => exact absurd hw (hwindow start endGroup endObject)
      | ended => simp [hw, Window.IsRange] at hrange
      | done => simp [hw, Window.IsRange] at hrange

theorem endSubscription_cancelled (h : ∀ i k, t.tasks i = some k → k.cancelled = true) (p : Nat) :
    ∀ i k, (t.endSubscription p).tasks i = some k → k.cancelled = true := by
  intro i k hk
  by_contra hlive
  obtain ⟨l, hl, halike⟩ :=
    (Agrees.endSubscription t p).tasks i k hk (by simpa using hlive)
  rw [halike.cancelled] at hlive
  exact hlive (h i l hl)

/-- The subscriptions of the peers end one after the other. -/
theorem endAll_cancelled {n : Nat} (ps : List Nat) (t : Track) (hn : t.numSubs = n)
    (hgenerating : ∀ q < n, (t.subs q).window.IsRange ∨ (t.subs q).generating = false)
    (hleft : ∀ q < n, (t.subs q).window.IsRange → q ∈ ps)
    (hsome : (∀ i k, t.tasks i = some k → k.cancelled = true) ∨
      ∃ q < n, (t.subs q).window.IsRange) :
    ∀ i k, (ps.foldl endSubscription t).tasks i = some k → k.cancelled = true := by
  induction ps generalizing t with
  | nil =>
      obtain hall | ⟨q, hq, hrange⟩ := hsome
      · exact hall
      · exact absurd (hleft q hq hrange) List.not_mem_nil
  | cons p ps ih =>
      rw [List.foldl_cons]
      have hself := endSubscription_subs_self t p
      apply ih
      · rw [endSubscription_numSubs, hn]
      · intro q hq
        by_cases hqp : q = p
        · subst hqp
          by_cases hrange : (t.subs q).window.IsRange
          · exact Or.inr (hself.2 hrange)
          · rw [endSubscription_of_mark hrange]
            exact hgenerating q hq
        · rw [endSubscription_subs_of_ne t hqp]
          exact hgenerating q hq
      · intro q hq hrange
        have hqp : q ≠ p := by
          rintro rfl
          exact hself.1 hrange
        rw [endSubscription_subs_of_ne t hqp] at hrange
        exact (List.mem_cons.mp (hleft q hq hrange)).resolve_left hqp
      · obtain hall | ⟨q, hq, hrange⟩ := hsome
        · exact Or.inl (endSubscription_cancelled hall p)
        · by_cases hothers : ∃ q < n, q ≠ p ∧ (t.subs q).generating = true
          · -- A peer that still generates has its range, and its turn comes.
            obtain ⟨q, hq, hqp, hgen⟩ := hothers
            refine Or.inr ⟨q, hq, ?_⟩
            rw [endSubscription_subs_of_ne t hqp]
            exact (hgenerating q hq).resolve_right (by simp [hgen])
          · push Not at hothers
            by_cases hp : (t.subs p).window.IsRange
            · exact Or.inl (endSubscription_tasks hp fun q hq hqp => by
                simpa using hothers q (hn ▸ hq) hqp)
            · rw [endSubscription_of_mark hp]
              exact Or.inr ⟨q, hq, hrange⟩

theorem Ordered.endTrack (h : t.Ordered) (hclear : Orderly cfg t .endTrack) :
    t.endTrack.Ordered := by
  by_cases hsome : ∃ p < t.numSubs, (t.subs p).window.IsRange
  · apply Ordered.ofCancelled (Owned.endTrack h.owned)
    exact endAll_cancelled _ t rfl (hclear hsome) (fun q hq _ => List.mem_range.mpr hq)
      (Or.inr hsome)
  · push Not at hsome
    have hsame : t.endTrack = t := by
      refine List.foldlRecOn (motive := fun u : Track => u = t) _ _ rfl ?_
      intro u hu p hp
      rw [hu, endSubscription_of_mark (hsome p (List.mem_range.mp hp))]
    rwa [hsame]

/-! ## Sessions -/

theorem Ordered.stopSending (h : t.Ordered) (sid : Nat) : (t.stopSending sid).Ordered := by
  refine h.frame (Frame.closeStream t sid [] (by simp)) ?_ (closeStream_tasks ..)
  intro p
  rw [Track.stopSending, closeStream_subs]
  exact ⟨rfl, rfl⟩

theorem Ordered.closeSession (h : t.Ordered) (p : Nat) : (t.closeSession p).Ordered := by
  refine h.frame (Frame.closeSession t p) ?_ rfl
  exact stands_setSub rfl rfl

theorem Ordered.addSession (htracked : t.Tracked cfg) (h : t.Ordered) (endsWithDone : Bool) :
    { t.setSub t.numSubs { endsWithDone } with numSubs := t.numSubs + 1 }.Ordered where
  owned sid hsid hopen hclosed := by
    have hne : (t.streams sid).peer ≠ t.numSubs := Nat.ne_of_lt (htracked.placed sid hsid)
    refine h.owned sid hsid hopen ?_
    rwa [← setSub_of_ne t { endsWithDone } hne]
  rivals := h.rivals
  serves i k hk := by
    have hne : k.peer ≠ t.numSubs := Nat.ne_of_lt (htracked.each i k hk).seated
    exact (h.serves i k hk).congr (setSub_of_ne t { endsWithDone } hne)

end Events

end Track

end AioMoqt.Publisher
