import AioMoqt.Publisher.Proofs.Producers.Located

/-!
# Peers write nothing

What a peer's event leaves of the tasks and the streams: the tasks that go on stand where
they did, and no stream is opened or written to.
-/

namespace AioMoqt.Publisher

open AioMoqt.Lib AioMoqt.Messages

/-- A task that stands where another did. -/
structure Task.Alike (k k' : Task) : Prop where
  peer : k'.peer = k.peer
  trackAlias : k'.trackAlias = k.trackAlias
  subgroup : k'.subgroup = k.subgroup
  group : k'.group = k.group
  object : k'.object = k.object
  header : k'.header = k.header
  short : k'.short = k.short
  pc : k'.pc = k.pc
  cancelled : k'.cancelled = k.cancelled
  stream : k'.stream = none ∨ k'.stream = k.stream

theorem Task.Alike.refl (k : Task) : k.Alike k :=
  ⟨rfl, rfl, rfl, rfl, rfl, rfl, rfl, rfl, rfl, Or.inr rfl⟩

theorem Task.Alike.trans {k l m : Task} (h : k.Alike l) (h' : l.Alike m) : k.Alike m where
  peer := h'.peer.trans h.peer
  trackAlias := h'.trackAlias.trans h.trackAlias
  subgroup := h'.subgroup.trans h.subgroup
  group := h'.group.trans h.group
  object := h'.object.trans h.object
  header := h'.header.trans h.header
  short := h'.short.trans h.short
  pc := h'.pc.trans h.pc
  cancelled := h'.cancelled.trans h.cancelled
  stream := by
    obtain hnone | hsame := h'.stream
    · exact Or.inl hnone
    · rw [hsame]
      exact h.stream

/-- A stream was not written to, though it may have ended other than with a FIN. -/
structure Stream.Untouched (s s' : Stream) : Prop where
  same : s' = { s with state := s'.state }
  fin : s'.state = .fin → s.state = .fin

theorem Stream.Untouched.refl (s : Stream) : s.Untouched s := ⟨rfl, id⟩

theorem Stream.Untouched.trans {s s' s'' : Stream} (h : s.Untouched s') (h' : s'.Untouched s'') :
    s.Untouched s'' where
  same := by
    rw [h'.same, h.same]
  fin := h.fin ∘ h'.fin

namespace Track

/-- Nothing was written, on a stream or as a datagram, and no stream was opened. -/
structure Still (t t' : Track) : Prop where
  written : t'.written = t.written
  history : t'.history = t.history
  nextStream : t'.nextStream = t.nextStream
  streams : ∀ sid, (t.streams sid).Untouched (t'.streams sid)

/-- The tasks that go on stand where they did. -/
structure Agrees (t t' : Track) : Prop extends Still t t' where
  largest : t'.largest = t.largest
  tasks : ∀ i k', t'.tasks i = some k' → k'.cancelled = false →
    ∃ k, t.tasks i = some k ∧ k.Alike k'

theorem Still.refl (t : Track) : Still t t := ⟨rfl, rfl, rfl, fun _ => Stream.Untouched.refl _⟩

theorem Still.trans {t u v : Track} (h : Still t u) (h' : Still u v) : Still t v where
  written := h'.written.trans h.written
  history := h'.history.trans h.history
  nextStream := h'.nextStream.trans h.nextStream
  streams sid := (h.streams sid).trans (h'.streams sid)

theorem Agrees.refl (t : Track) : Agrees t t :=
  ⟨Still.refl t, rfl, fun _ k hk _ => ⟨k, hk, Task.Alike.refl k⟩⟩

theorem Agrees.trans {t u v : Track} (h : Agrees t u) (h' : Agrees u v) : Agrees t v where
  toStill := h.toStill.trans h'.toStill
  largest := h'.largest.trans h.largest
  tasks i m hm hlive := by
    obtain ⟨l, hl, halike'⟩ := h'.tasks i m hm hlive
    obtain ⟨k, hk, halike⟩ := h.tasks i l hl (halike'.cancelled ▸ hlive)
    exact ⟨k, hk, halike.trans halike'⟩

/-- Only the subscriptions change. -/
theorem Agrees.ofSubs {t t' : Track} (hwritten : t'.written = t.written)
    (hhistory : t'.history = t.history) (hlargest : t'.largest = t.largest)
    (htasks : t'.tasks = t.tasks) (hstreams : t'.streams = t.streams)
    (hnext : t'.nextStream = t.nextStream) : Agrees t t' where
  written := hwritten
  history := hhistory
  nextStream := hnext
  streams sid := by
    rw [hstreams]
    exact Stream.Untouched.refl _
  largest := hlargest
  tasks i k hk _ := ⟨k, htasks ▸ hk, Task.Alike.refl k⟩

theorem Agrees.closeStream (t : Track) (sid : Nat) {state : StreamState} (hstate : state ≠ .fin) :
    Agrees t (t.closeStream sid [] state) := by
  unfold Track.closeStream
  simp only
  split
  · refine ⟨⟨rfl, rfl, rfl, ?_⟩, rfl, fun _ k hk _ => ⟨k, hk, Task.Alike.refl k⟩⟩
    intro other
    by_cases h : other = sid
    · subst h
      rw [setStream_self, List.append_nil]
      exact ⟨rfl, fun hfin => absurd hfin hstate⟩
    · rw [setStream_of_ne _ _ h]
      exact Stream.Untouched.refl _
  · exact Agrees.refl t

theorem Agrees.reset (t : Track) (k : Task) : Agrees t (t.reset k).1 := by
  unfold Track.reset
  split
  · exact Agrees.refl t
  · simp only
    split
    · exact Agrees.ofSubs rfl rfl rfl rfl rfl rfl
    · exact (Agrees.closeStream t _ (by simp)).trans (Agrees.ofSubs rfl rfl rfl rfl rfl rfl)

theorem reset_alike (t : Track) (k : Task) : k.Alike (t.reset k).2 := by
  unfold Track.reset
  split
  · exact Task.Alike.refl k
  · exact ⟨rfl, rfl, rfl, rfl, rfl, rfl, rfl, rfl, rfl, Or.inl rfl⟩

theorem Agrees.cutTask (t : Track) (p i : Nat) : Agrees t (t.cutTask p i) := by
  unfold Track.cutTask
  split
  · exact Agrees.refl t
  next k hk =>
      split
      · split
        · have hreset := Agrees.reset t k
          refine ⟨⟨hreset.written, hreset.history, hreset.nextStream, hreset.streams⟩, hreset.largest, ?_⟩
          intro j l hl hlive
          obtain ⟨rfl, heq⟩ | ⟨hj, hl⟩ := Table.update_eq_some hl
          · obtain rfl := Option.some.inj heq
            exact ⟨k, hk, reset_alike t k⟩
          · exact hreset.tasks j l hl hlive
        · exact Agrees.refl t
      · exact Agrees.refl t

theorem Agrees.cutStreams (t : Track) (p : Nat) : Agrees t (t.cutStreams p) :=
  List.foldlRecOn (motive := fun u => Agrees t u) _ _ (Agrees.refl t)
    fun _ hu i _ => hu.trans (Agrees.cutTask _ p i)

theorem Agrees.setForward (t : Track) (p : Nat) (forward : Option Bool) :
    Agrees t (t.setForward p forward) := by
  cases forward with
  | none => exact Agrees.refl t
  | some forward =>
      have hsub : Agrees t (t.setSub p { t.subs p with forward }) :=
        Agrees.ofSubs rfl rfl rfl rfl rfl rfl
      exact hsub.trans (Agrees.cutStreams _ p)

theorem Agrees.startFill (t : Track) (p request : Nat) (fill : Bool) :
    Agrees t (t.startFill p request fill) := by
  unfold Track.startFill
  simp only
  split
  · exact Agrees.ofSubs rfl rfl rfl rfl rfl rfl
  · exact Agrees.refl t

theorem Agrees.filtered (t : Track) (p : Nat)
    (range : Option (Location × Option Nat × Option Nat)) : Agrees t (t.filtered p range) := by
  unfold Track.filtered
  split
  · exact Agrees.refl t
  · exact Agrees.cutStreams t p
  · exact Agrees.cutStreams t p
  next start endGroup endObject _ _ =>
      have hsub : Agrees t (t.setSub p
          { t.subs p with window := .range start endGroup endObject }) :=
        Agrees.ofSubs rfl rfl rfl rfl rfl rfl
      exact hsub.trans (Agrees.cutStreams _ p)

theorem Agrees.cancelAll (t : Track) : Agrees t t.cancelAll := by
  refine ⟨⟨rfl, rfl, rfl, fun _ => Stream.Untouched.refl _⟩, rfl, ?_⟩
  intro i k hk hlive
  obtain ⟨l, hl, rfl⟩ := cancelAll_eq_some hk
  simp at hlive

theorem Agrees.stopProducing (t : Track) (p : Nat) : Agrees t (t.stopProducing p) := by
  have hsub : Agrees t (t.setSub p { t.subs p with generating := false }) :=
    Agrees.ofSubs rfl rfl rfl rfl rfl rfl
  rw [stopProducing_eq]
  split
  · exact hsub
  · exact hsub.trans (Agrees.cancelAll _)

theorem Agrees.endSubscription (t : Track) (p : Nat) : Agrees t (t.endSubscription p) := by
  unfold Track.endSubscription
  split
  · have hsub : Agrees t (t.setSub p ((t.subs p).ended .trackEnded)) :=
      Agrees.ofSubs rfl rfl rfl rfl rfl rfl
    exact (hsub.trans (Agrees.stopProducing _ p)).trans (Agrees.ofSubs rfl rfl rfl rfl rfl rfl)
  · exact Agrees.refl t

theorem Agrees.endTrack (t : Track) : Agrees t t.endTrack :=
  List.foldlRecOn (motive := fun u => Agrees t u) _ _ (Agrees.refl t)
    fun _ hu p _ => hu.trans (Agrees.endSubscription _ p)

theorem Agrees.onRequestCancelled (t : Track) (p request : Nat) :
    Agrees t (t.onRequestCancelled p request) := by
  have hleft : Agrees t (t.left p request) := Agrees.ofSubs rfl rfl rfl rfl rfl rfl
  rw [onRequestCancelled_eq]
  split
  · exact hleft.trans (Agrees.stopProducing _ p)
  · exact hleft

theorem Agrees.closeSession (t : Track) (p : Nat) : Agrees t (t.closeSession p) := by
  refine ⟨⟨rfl, rfl, rfl, ?_⟩, rfl, fun _ k hk _ => ⟨k, hk, Task.Alike.refl k⟩⟩
  intro sid
  simp only [Track.closeSession]
  split
  · exact ⟨rfl, fun hfin => absurd hfin (by simp)⟩
  · exact Stream.Untouched.refl _

theorem Still.startGenerating (cfg : Config) (t : Track) (p skip : Nat) :
    Still t (t.startGenerating cfg p skip) := by
  unfold Track.startGenerating
  simp only
  split
  · exact Still.refl t
  · exact ⟨rfl, rfl, rfl, fun _ => Stream.Untouched.refl _⟩

end Track

end AioMoqt.Publisher
