import AioMoqt.Lib.Barred
import AioMoqt.Session.Proofs.Bindings

/-!
# Malformed tracks

A track found malformed is barred until its bounds are forgotten: no object of it is delivered or
held.  The sweep of `_malformed_track` walks the table of bindings, so this holds as long as it
finds every open stream of the track there.
-/

namespace AioMoqt.Session

open AioMoqt.Lib AioMoqt.Lib.BigEndian AioMoqt.Lib.Barred AioMoqt.Messages

/-- What an event means for the tracks: a replayed object arrived when it was held. -/
def DataEvent.effect : DataEvent → Effect Nat
  | .object _ arrival => .acts arrival.trackAlias
  | .held arrival => .acts arrival.trackAlias
  | .malformed trackAlias => .bars trackAlias
  | .forgot trackAlias => .frees trackAlias
  | _ => .none

namespace DataPlane

/-- The malformed tracks are those that the log bars, and no stream of one is open. -/
structure Hushed (s : DataPlane) : Prop where
  agrees : ∀ trackAlias, trackAlias ∈ s.malformedAliases ↔
    barred DataEvent.effect s.log trackAlias = true
  silent : Silent DataEvent.effect s.log
  swept : ∀ trackAlias ∈ s.malformedAliases, ∀ streamId st,
    s.streams.get? streamId = some st → st.trackAlias ≠ some trackAlias

/-- A change that keeps the malformed tracks silent, as long as every sweep finds its streams. -/
def Calms (s s' : DataPlane) : Prop :=
  s'.missed = [] → s.missed = [] ∧ (s.Hushed → s'.Hushed)

theorem Calms.rfl {s : DataPlane} : s.Calms s := fun h => ⟨h, id⟩

theorem Calms.trans {s s' s'' : DataPlane} (h : s.Calms s') (h' : s'.Calms s'') : s.Calms s'' := by
  intro hmissed
  have hlater := h' hmissed
  have hearlier := h hlater.1
  exact ⟨hearlier.1, fun hhushed => hlater.2 (hearlier.2 hhushed)⟩

/-! ## Changes that concern no track -/

/-- Nothing is barred, freed or delivered, and no stream gets an alias. -/
structure Still (s s' : DataPlane) : Prop where
  missed : s'.missed = s.missed
  malformed : s'.malformedAliases = s.malformedAliases
  log : ∃ events, s'.log = s.log ++ events ∧ ∀ event ∈ events, event.effect = .none
  aliases : ∀ streamId st trackAlias, s'.streams.get? streamId = some st →
    st.trackAlias = some trackAlias →
      ∃ old, s.streams.get? streamId = some old ∧ old.trackAlias = some trackAlias

theorem Still.of_frame {s s' : DataPlane} (hmissed : s'.missed = s.missed)
    (hmalformed : s'.malformedAliases = s.malformedAliases) (hlog : s'.log = s.log)
    (hstreams : s'.streams = s.streams) : s.Still s' where
  missed := hmissed
  malformed := hmalformed
  log := ⟨[], by rw [hlog, List.append_nil], by simp⟩
  aliases := fun streamId st trackAlias hget halias =>
    ⟨st, by rw [← hstreams]; exact hget, halias⟩

theorem Still.rfl {s : DataPlane} : s.Still s :=
  .of_frame (Eq.refl _) (Eq.refl _) (Eq.refl _) (Eq.refl _)

theorem Still.trans {s s' s'' : DataPlane} (h : s.Still s') (h' : s'.Still s'') : s.Still s'' where
  missed := h'.missed.trans h.missed
  malformed := h'.malformed.trans h.malformed
  log := by
    obtain ⟨first, hfirst, hquiet⟩ := h.log
    obtain ⟨second, hsecond, hquiet'⟩ := h'.log
    refine ⟨first ++ second, by rw [hsecond, hfirst, List.append_assoc], ?_⟩
    intro event hevent
    rcases List.mem_append.mp hevent with hevent | hevent
    · exact hquiet event hevent
    · exact hquiet' event hevent
  aliases := by
    intro streamId st trackAlias hget halias
    obtain ⟨mid, hmid, halias'⟩ := h'.aliases streamId st trackAlias hget halias
    exact h.aliases streamId mid trackAlias hmid halias'

theorem Still.of_core {s s' : DataPlane} (h : s'.core = s.core) : s.Still s' :=
  .of_frame (congrArg DataPlane.missed h :) (congrArg DataPlane.malformedAliases h :)
    (congrArg DataPlane.log h :) (congrArg DataPlane.streams h :)

theorem Still.calms {s s' : DataPlane} (h : s.Still s') : s.Calms s' := by
  intro hmissed
  refine ⟨h.missed ▸ hmissed, fun hhushed => ?_⟩
  obtain ⟨events, hlog, hquiet⟩ := h.log
  have hbarred := quiet_append s.log hquiet
  constructor
  · intro trackAlias
    rw [h.malformed, hlog, hbarred.1 trackAlias]
    exact hhushed.agrees trackAlias
  · rw [hlog]
    exact hbarred.2 hhushed.silent
  · intro trackAlias hmem streamId st hget halias
    rw [h.malformed] at hmem
    obtain ⟨old, hold, halias'⟩ := h.aliases streamId st trackAlias hget halias
    exact hhushed.swept trackAlias hmem streamId old hold halias'

/-- An event that concerns no track. -/
theorem still_logged (s : DataPlane) {event : DataEvent} (h : event.effect = .none)
    (history : List (Ownership.Event Nat SubgroupKey)) :
    s.Still { s with log := s.log ++ [event], history := history } where
  missed := Eq.refl _
  malformed := Eq.refl _
  log := by
    refine ⟨[event], Eq.refl _, ?_⟩
    intro event' hevent
    rw [List.mem_singleton] at hevent
    rw [hevent]
    exact h
  aliases := fun streamId st trackAlias hget halias => ⟨st, hget, halias⟩

theorem still_markStreamTornDown (s : DataPlane) (now streamId : Nat) :
    s.Still (s.markStreamTornDown now streamId) := by
  unfold markStreamTornDown
  dsimp only
  split
  · exact Still.of_frame rfl rfl rfl rfl
  · exact Still.of_frame rfl rfl rfl rfl

/-- A stream is gone. -/
theorem still_erase (s : DataPlane) (streamId : Nat) :
    s.Still { s with streams := s.streams.erase streamId } where
  missed := rfl
  malformed := rfl
  log := ⟨[], (List.append_nil _).symm, by simp⟩
  aliases := by
    intro id st trackAlias hget halias
    rw [Dict.get?_erase] at hget
    split_ifs at hget
    exact ⟨st, hget, halias⟩

/-- A stream whose state changes keeps its alias. -/
theorem still_insert {s : DataPlane} {streamId : Nat} {st : DataStream}
    (h : ∀ trackAlias, st.trackAlias = some trackAlias →
      ∃ old, s.streams.get? streamId = some old ∧ old.trackAlias = some trackAlias) :
    s.Still { s with streams := s.streams.insert streamId st } where
  missed := rfl
  malformed := rfl
  log := ⟨[], (List.append_nil _).symm, by simp⟩
  aliases := by
    intro id st' trackAlias hget halias
    rw [Dict.get?_insert] at hget
    split_ifs at hget with hid
    · cases hget
      rw [hid]
      exact h trackAlias halias
    · exact ⟨st', hget, halias⟩

theorem still_putStream {s : DataPlane} {streamId : Nat} {st : DataStream}
    (h : ∀ old trackAlias, s.streams.get? streamId = some old →
      st.trackAlias = some trackAlias → old.trackAlias = some trackAlias) :
    s.Still (s.putStream streamId st) := by
  cases hget : s.streams.get? streamId with
  | none =>
      rw [putStream_of_gone hget]
      exact Still.rfl
  | some old =>
      rw [putStream_of_open hget]
      apply still_insert
      intro trackAlias halias
      exact ⟨old, hget, h old trackAlias hget halias⟩

theorem still_cleanupStream (env : DataEnv) (s : DataPlane) (now streamId : Nat) (clean : Bool)
    (resetCode : Nat) : s.Still (s.cleanupStream env now streamId clean resetCode) := by
  unfold cleanupStream
  dsimp only
  set gone := ({ s with streams := s.streams.erase streamId } : DataPlane).markStreamTornDown now
    streamId
  have hgone : s.Still gone :=
    (still_erase s streamId).trans (still_markStreamTornDown _ now streamId)
  split
  · exact hgone
  · rename_i st _
    set counted : DataPlane := { gone with rxHeldBytes := gone.rxHeldBytes - st.held }
    have hcounted : s.Still counted := hgone.trans (Still.of_frame rfl rfl rfl rfl)
    split
    · exact hcounted
    · rename_i key _
      set fixed := counted.fixGroupEnd st key clean
      have hfixed : counted.Still fixed := Still.of_core (fixGroupEnd_core counted st key clean)
      have hended : fixed.Still (fixed.reportStreamEnd now streamId key clean resetCode) := by
        refine Still.trans (still_logged fixed ?_ _)
          (Still.of_core (reportStreamEnd_core fixed now streamId key clean resetCode))
        rfl
      exact ((hcounted.trans hfixed).trans hended).trans (Still.of_frame rfl rfl rfl rfl)
    · rename_i requestId _
      have hquiet : (DataEvent.fetchDone requestId clean).effect = .none := rfl
      have hlogged := hcounted.trans (still_logged counted hquiet counted.history)
      exact hlogged.trans (Still.of_frame rfl rfl rfl rfl)

theorem still_closeSession (s : DataPlane) (now : Nat) (errorCode : SessionCloseCode) :
    s.Still (s.closeSession now errorCode) := by
  have htorn : ∀ (ids : List Nat) (s : DataPlane),
      s.Still (ids.foldl (fun s streamId => s.markStreamTornDown now streamId) s) := by
    intro ids
    induction ids with
    | nil => exact fun _ => Still.rfl
    | cons streamId ids ih =>
        exact fun s => (still_markStreamTornDown s now streamId).trans (ih _)
  have hquiet : (DataEvent.closed errorCode).effect = .none := rfl
  set torn := s.streams.keys.foldl (fun s streamId => s.markStreamTornDown now streamId) s
  have hlogged := (htorn s.streams.keys s).trans (still_logged torn hquiet torn.history)
  exact {
    missed := hlogged.missed
    malformed := hlogged.malformed
    log := hlogged.log
    aliases := by
      intro streamId st trackAlias hget
      cases hget }

theorem DataEvent.Plain.effect {event : DataEvent} (h : event.Plain) : event.effect = .none := by
  cases event <;> first | rfl | cases h

theorem still_ends (env : DataEnv) (now : Nat) : Ends env now (fun _ => True) Still where
  refl := fun _ => Still.rfl
  trans := Still.trans
  known := fun h => h fun _ _ => trivial
  aside := Still.of_core
  logged := fun s _ hplain => still_logged s (DataEvent.Plain.effect hplain) s.history
  tear := fun s _ _ => still_markStreamTornDown s now _
  cleanup := fun s _ clean resetCode _ => still_cleanupStream env s now _ clean resetCode
  close := fun s errorCode => still_closeSession s now errorCode

theorem still_bindSubgroupStream (s : DataPlane) (streamId : Nat) (key : SubgroupKey) :
    s.Still (s.bindSubgroupStream streamId key) := by
  apply bindSubgroupStream_steps
  case refl => exact fun s => Still.rfl
  case trans => exact Still.trans
  case rekey =>
    intro s id st k hget
    apply still_insert
    intro trackAlias halias
    exact ⟨st, hget, halias⟩
  case logged => exact fun s history => Still.of_frame rfl rfl rfl rfl
  case grant => exact fun s => Still.of_frame rfl rfl rfl rfl

/-! ## A track is barred, and freed -/

theorem rejectStream_streams (env : DataEnv) (s : DataPlane) (now streamId errorCode : Nat) :
    (s.rejectStream env now streamId errorCode).streams = s.streams.erase streamId := by
  have htables := congrArg BindingTables.streams (rejectStream_tables env s now streamId errorCode)
  rwa [BindingTables.drop_streams] at htables

/-- Streams that are rejected are gone. -/
theorem rejected_gone (env : DataEnv) (now errorCode : Nat) {ids : List Nat} {s : DataPlane}
    {streamId : Nat} (h : streamId ∈ ids ∨ s.streams.get? streamId = none) :
    (ids.foldl (fun s id => s.rejectStream env now id errorCode) s).streams.get? streamId = none := by
  induction ids generalizing s with
  | nil =>
      rcases h with h | h
      · cases h
      · exact h
  | cons id ids ih =>
      apply ih
      rw [rejectStream_streams, Dict.get?_erase]
      by_cases hid : streamId = id
      · right
        rw [if_pos hid]
      · rw [if_neg hid]
        rcases h with h | h
        · exact Or.inl ((List.mem_cons.mp h).resolve_left hid)
        · exact Or.inr h

theorem calms_sweepTrack (env : DataEnv) (s : DataPlane) (now trackAlias : Nat) :
    s.Calms (s.sweepTrack env now trackAlias) := by
  unfold sweepTrack
  dsimp only
  set marked : DataPlane :=
    { s with
      malformedAliases := trackAlias :: s.malformedAliases
      missed := s.missed ++ s.missedStreams trackAlias
      log := s.log ++ [.malformed trackAlias] }
  set swept := (marked.streamsOfTrack trackAlias).foldl
    (fun s streamId => s.rejectStream env now streamId StreamResetCode.malformedTrack.code)
    marked
  have hstill : marked.Still swept :=
    (still_ends env now).rejects marked trackAlias StreamResetCode.malformedTrack.code
  have hswept : s.Calms swept := by
    intro hmissed
    rw [hstill.missed] at hmissed
    obtain ⟨hearlier, hnone⟩ := List.append_eq_nil_iff.mp hmissed
    refine ⟨hearlier, fun hhushed => ?_⟩
    obtain ⟨events, hlog, hquiet⟩ := hstill.log
    have hbarred := quiet_append marked.log hquiet
    constructor
    · intro other
      rw [hstill.malformed, hlog, hbarred.1 other]
      show other ∈ trackAlias :: s.malformedAliases ↔
        barred DataEvent.effect (s.log ++ [.malformed trackAlias]) other = true
      rw [barred_append, List.mem_cons, hhushed.agrees other]
      show other = trackAlias ∨ _ ↔ (_ || decide (trackAlias = other)) = true
      rw [Bool.or_eq_true, decide_eq_true_eq, eq_comm, or_comm]
    · rw [hlog]
      apply hbarred.2
      apply hhushed.silent.append
      intro other hacts
      cases hacts
    · intro other hmem streamId st hget halias
      obtain ⟨old, hold, halias'⟩ := hstill.aliases streamId st other hget halias
      rw [hstill.malformed] at hmem
      rcases List.mem_cons.mp hmem with rfl | hmem
      · -- a stream that the table binds to the track has been rejected, any other is missed
        by_cases hbound : streamId ∈ s.streamsOfTrack other
        · have hgone : swept.streams.get? streamId = none :=
            rejected_gone env now _ (Or.inl hbound)
          rw [hgone] at hget
          cases hget
        · have hentry : (streamId, old) ∈ s.streams.entries := Dict.get?_eq_some.mp hold
          have hmiss : (other, streamId) ∈ s.missedStreams other := by
            unfold missedStreams
            apply List.mem_map.mpr
            exact ⟨(streamId, old), by simp [hentry, halias', hbound], rfl⟩
          rw [hnone] at hmiss
          cases hmiss
      · exact hhushed.swept other hmem streamId old hold halias'
  split
  · exact hswept
  · apply hswept.trans
    apply Still.calms
    exact Still.of_frame rfl rfl rfl rfl

theorem calms_forgetTrackBounds (s : DataPlane) (trackAlias : Nat) :
    s.Calms (s.forgetTrackBounds trackAlias) := by
  intro hmissed
  refine ⟨hmissed, fun hhushed => ?_⟩
  constructor
  · intro other
    show other ∈ s.malformedAliases.filter (· ≠ trackAlias) ↔
      barred DataEvent.effect (s.log ++ [.forgot trackAlias]) other = true
    rw [barred_append, List.mem_filter, hhushed.agrees other]
    show _ ∧ decide (other ≠ trackAlias) = true ↔ (_ && decide (trackAlias ≠ other)) = true
    rw [Bool.and_eq_true, decide_eq_true_eq, decide_eq_true_eq, ne_comm]
  · apply hhushed.silent.append
    intro other hacts
    cases hacts
  · intro other hmem streamId st hget halias
    have hbefore : other ∈ s.malformedAliases := (List.mem_filter.mp hmem).1
    exact hhushed.swept other hbefore streamId st hget halias

theorem calms_ends (env : DataEnv) (now : Nat) : Ends env now (fun _ => True) Calms where
  refl := fun _ => Calms.rfl
  trans := Calms.trans
  known := fun h => h fun _ _ => trivial
  aside := fun h => (Still.of_core h).calms
  logged := fun s event hplain => ((still_ends env now).logged s event hplain).calms
  tear := fun s _ _ => (still_markStreamTornDown s now _).calms
  cleanup := fun s _ clean resetCode _ => (still_cleanupStream env s now _ clean resetCode).calms
  close := fun s errorCode => (still_closeSession s now errorCode).calms

/-- The malformed tracks stay silent whatever callbacks do. -/
theorem calms_walks (env : DataEnv) (now : Nat) : Walks env now (fun _ => True) Calms where
  toEnds := calms_ends env now
  sweeps := fun s trackAlias => calms_sweepTrack env s now trackAlias
  forget := calms_forgetTrackBounds
  discard := fun _ _ => Still.calms (Still.of_frame rfl rfl rfl rfl)
  binds := fun hafter =>
    (calms_ends env now).replays hafter fun _ _ _ _ => Still.calms (Still.of_frame rfl rfl rfl rfl)

/-! ## Objects -/

/-- A change that keeps the malformed tracks silent under a condition. -/
def CalmsIf (p : Prop) (s s' : DataPlane) : Prop :=
  s'.missed = [] → s.missed = [] ∧ (p → s.Hushed → s'.Hushed)

theorem Calms.calmsIf {s s' : DataPlane} (h : s.Calms s') (p : Prop) : CalmsIf p s s' :=
  fun hmissed => ⟨(h hmissed).1, fun _ => (h hmissed).2⟩

theorem CalmsIf.calms {p : Prop} {s s' : DataPlane} (h : CalmsIf p s s') (hp : s.Hushed → p) :
    s.Calms s' :=
  fun hmissed => ⟨(h hmissed).1, fun hhushed => (h hmissed).2 (hp hhushed) hhushed⟩

theorem CalmsIf.trans {p : Prop} {s s' s'' : DataPlane} (h : CalmsIf p s s')
    (h' : CalmsIf p s' s'') : CalmsIf p s s'' := by
  intro hmissed
  have hlater := h' hmissed
  have hearlier := h hlater.1
  exact ⟨hearlier.1, fun hp hhushed => hlater.2 hp (hearlier.2 hp hhushed)⟩

/-- After a change that concerns no track. -/
theorem Still.calmsIf {trackAlias : Nat} {s s' s'' : DataPlane} (h : s.Still s')
    (h' : CalmsIf (trackAlias ∉ s'.malformedAliases) s' s'') :
    CalmsIf (trackAlias ∉ s.malformedAliases) s s'' := by
  rw [← h.malformed]
  exact (h.calms.calmsIf _).trans h'

/-- An object of a track that is not malformed. -/
theorem calmsIf_logged (s : DataPlane) {event : DataEvent} {trackAlias : Nat}
    (h : event.effect = .acts trackAlias) :
    CalmsIf (trackAlias ∉ s.malformedAliases) s { s with log := s.log ++ [event] } := by
  intro hmissed
  refine ⟨hmissed, fun hclear hhushed => ?_⟩
  constructor
  · intro other
    rw [barred_append, h]
    exact hhushed.agrees other
  · apply hhushed.silent.append
    intro other hacts
    rw [h, Effect.acts.injEq] at hacts
    subst hacts
    rw [← Bool.not_eq_true, ← hhushed.agrees trackAlias]
    exact hclear
  · exact hhushed.swept

theorem calmsIf_holdEarlyObject (s : DataPlane) (now : Nat) (arrival : Arrival) :
    CalmsIf (arrival.trackAlias ∉ s.malformedAliases) s (s.holdEarlyObject now arrival) := by
  have hexpired : s.Still (s.expireEarlyObjects now) := Still.of_frame rfl rfl rfl rfl
  have hheld : (DataEvent.held arrival).effect = .acts arrival.trackAlias := rfl
  unfold holdEarlyObject
  dsimp only
  split
  · exact Calms.rfl.calmsIf _
  · split
    · exact hexpired.calms.calmsIf _
    · apply hexpired.calmsIf
      apply (calmsIf_logged _ hheld).trans
      apply Calms.calmsIf
      apply Still.calms
      exact Still.of_frame rfl rfl rfl rfl

theorem calmsIf_deliverArrival (env : DataEnv) (s : DataPlane) (now : Nat) (arrival : Arrival) :
    CalmsIf (arrival.trackAlias ∉ s.malformedAliases) s (s.deliverArrival env now arrival) := by
  unfold deliverArrival
  split
  · rename_i cb _
    have hobject : (DataEvent.object cb arrival).effect = .acts arrival.trackAlias := rfl
    exact (calmsIf_logged s hobject).trans (((calms_walks env now).callback _).calmsIf _)
  · exact calmsIf_holdEarlyObject s now arrival

/-- A stream gets the alias of a track that is not malformed. -/
theorem calmsIf_putStream (s : DataPlane) (streamId : Nat) {st : DataStream} {trackAlias : Nat}
    (h : st.trackAlias = some trackAlias) :
    CalmsIf (trackAlias ∉ s.malformedAliases) s (s.putStream streamId st) := by
  unfold putStream
  split
  · intro hmissed
    refine ⟨hmissed, fun hclear hhushed => ?_⟩
    constructor
    · exact hhushed.agrees
    · exact hhushed.silent
    · intro other hmem id st' hget halias
      rw [Dict.get?_insert] at hget
      split_ifs at hget
      · cases hget
        rw [h, Option.some.injEq] at halias
        exact hclear (halias ▸ hmem)
      · exact hhushed.swept other hmem id st' hget halias
  · exact Calms.rfl.calmsIf _

/-! ## Turns of the drain loop -/

theorem calms_handleSubgroupHeader (env : DataEnv) (s : DataPlane) (now streamId : Nat)
    (st : DataStream) (hdr : SubgroupHeader) :
    s.Calms (s.handleSubgroupHeader env now streamId st hdr).plane := by
  have hbind : ∀ s : DataPlane, s.Still ((subgroupKey hdr).elim s fun key =>
      s.bindSubgroupStream streamId key) := by
    intro s
    cases subgroupKey hdr with
    | none => exact Still.rfl
    | some key => exact still_bindSubgroupStream s streamId key
  have hnoted : s.Still (s.noteUnboundAlias hdr.trackAlias) :=
    Still.of_core (noteUnboundAlias_core s hdr.trackAlias)
  unfold handleSubgroupHeader
  split_ifs with hmalformed hbegun
  · exact (calms_walks env now).reject s trivial _
  · exact (hnoted.trans (hbind _)).calms.trans ((calms_walks env now).malformedAt _ _ trivial)
  · rw [more_plane]
    apply CalmsIf.calms (p := hdr.trackAlias ∉ s.malformedAliases) _ fun _ => hmalformed
    apply hnoted.calmsIf
    apply (calmsIf_putStream _ streamId _).trans ((hbind _).calms.calmsIf _)
    rfl

theorem calms_handleFetchHeader (env : DataEnv) (s : DataPlane) (now streamId : Nat)
    (st : DataStream) (requestId : Nat) :
    s.Calms (s.handleFetchHeader env now streamId st requestId).plane := by
  apply (calms_walks env now).fetchHeader trivial
  intro hdr _
  have hbound : s.Still
      { s with fetchStreamByRequest := s.fetchStreamByRequest.insert requestId streamId } :=
    Still.of_frame rfl rfl rfl rfl
  apply (hbound.trans (still_putStream _)).calms
  intro _ trackAlias _ halias
  cases halias

theorem still_putAlike (s : DataPlane) {streamId : Nat} {st st' : DataStream}
    (hst : s.Current streamId st) (halike : st.Alike st') : s.Still (s.putStream streamId st') := by
  apply still_putStream
  intro old trackAlias hold halias
  rw [hst old hold]
  rcases halike.parser with ⟨hparser, -⟩ | ⟨hdr, hfetch⟩
  · rw [DataStream.trackAlias, ← hparser]
    exact halias
  · rw [DataStream.trackAlias, hfetch] at halias
    cases halias

/-- The checks on an object, of a track that is not malformed. -/
theorem calmsIf_checkObject (env : DataEnv) {s : DataPlane} (now : Nat) {streamId : Nat}
    {st : DataStream} (hst : s.Current streamId st) (obj : ObjectHeader)
    (hdr : SubgroupHeader) (consumed : Nat) :
    CalmsIf (hdr.trackAlias ∉ s.malformedAliases) s
      (s.checkObject env now streamId st obj hdr consumed).plane := by
  apply (calms_walks env now).checkObject (k := Still)
    (q := fun s s' => CalmsIf (hdr.trackAlias ∉ s.malformedAliases) s s') trivial
  · exact Still.calmsIf
  · exact fun hchecked hlater => hchecked.trans (hlater.calmsIf _)
  · exact fun hcalms => hcalms.calmsIf _
  · exact fun s _ _ => still_putAlike s
  · intro s arrival halias
    rw [← halias]
    exact calmsIf_deliverArrival env s now arrival
  · exact hst

/-- An object of an open stream: its track is not malformed, or the stream would not be open. -/
theorem calms_handleObject (env : DataEnv) {s : DataPlane} (now : Nat) {streamId : Nat}
    {old : DataStream} (hold : s.streams.get? streamId = some old) {hdr : SubgroupHeader}
    (hparser : old.parser = some (.subgroup hdr)) (rest : Bytes) (obj : ObjectHeader)
    (consumed : Nat) :
    s.Calms (s.handleObject env now streamId { old with chain := rest } obj
      (hdr.advance obj.objectId) consumed).plane := by
  have halias : old.trackAlias = some hdr.trackAlias := by
    rw [DataStream.trackAlias, hparser]
    rfl
  set st : DataStream :=
    { old with
      chain := rest
      parser := some (.subgroup (hdr.advance obj.objectId)) }
  have hput : s.Still (s.putStream streamId st) := by
    apply still_putStream
    intro old' trackAlias hold' halias'
    rw [hold, Option.some.injEq] at hold'
    rw [← hold', halias]
    exact halias'
  obtain ⟨bound, hbound, hturn⟩ := handleObject_cases env s now streamId
    { old with chain := rest } obj (hdr.advance obj.objectId) consumed
  have hbind : (s.putStream streamId st).Still bound := by
    rcases hbound with rfl | ⟨key, rfl⟩
    · exact Still.rfl
    · exact still_bindSubgroupStream _ streamId key
  rw [hturn]
  apply CalmsIf.calms (p := hdr.trackAlias ∉ s.malformedAliases)
  · apply (hput.trans hbind).calmsIf
    exact calmsIf_checkObject env now (current_streamState bound streamId _) obj
      (hdr.advance obj.objectId) consumed
  · intro hhushed hmem
    exact hhushed.swept hdr.trackAlias hmem streamId old hold halias

/-- The items that stand at the head of a stream; the stream may have ended. -/
theorem calms_handleHeader (env : DataEnv) (s : DataPlane) (now streamId : Nat) (st : DataStream)
    (consumed : Nat) {item : StreamItem} (h : item.isHeader = true) :
    s.Calms (s.handleItem env now streamId st consumed item).plane := by
  cases item with
  | padding => exact (calms_walks env now).reject s trivial _
  | subgroupHeader hdr => exact calms_handleSubgroupHeader env s now streamId st hdr
  | fetchHeader requestId => exact calms_handleFetchHeader env s now streamId st requestId
  | object obj hdr => cases h
  | fetchObject obj hdr => cases h

theorem calms_parseFailed (env : DataEnv) {s : DataPlane} (now : Nat) {streamId : Nat}
    {st : DataStream} (hst : s.Current streamId st) (parser : Option StreamParser) (e : MoqtError) :
    s.Calms (s.parseFailed env now streamId st parser e) :=
  (calms_walks env now).parseFailed trivial
    (fun _ => Still.calms (still_putAlike s hst ⟨rfl, rfl, Or.inl ⟨rfl, rfl⟩⟩)) parser e

theorem calms_drainTurn (env : DataEnv) {s : DataPlane} (now : Nat) {streamId : Nat}
    {st : DataStream} (hst : s.Current streamId st) :
    s.Calms (s.drainTurn env now streamId st).plane := by
  rcases Option.eq_none_or_eq_some (s.streams.get? streamId) with hget | ⟨old, hget⟩
  · have hgone : ¬ streamId ∈ s.streams.keys := fun hkey => Dict.mem_keys.mp hkey hget
    set strayed : DataPlane := { s with strays := s.strays ++ [streamId] } with hstrayed
    have hstill : s.Still strayed := Still.of_frame rfl rfl rfl rfl
    unfold drainTurn
    simp only [hgone, decide_false, Bool.false_eq_true, if_false]
    rw [← hstrayed]
    apply hstill.calms.trans
    split
    · have hopen : strayed.Current streamId st := hst
      exact calms_parseFailed env now hopen none _
    · rename_i hpull
      exact calms_handleHeader env strayed now streamId _ _ (pullStreamHeader_isHeader hpull)
  · have hsame := hst old hget
    subst hsame
    have hopen : streamId ∈ s.streams.keys := Dict.mem_keys.mpr (by simp [hget])
    unfold drainTurn
    simp only [hopen, decide_true, if_true]
    split
    · exact calms_parseFailed env now hst old.parser _
    · rename_i item cur hpull
      rcases Option.eq_none_or_eq_some old.parser with hparser | ⟨parser, hparser⟩
      · rw [hparser] at hpull
        exact calms_handleHeader env s now streamId _ _ (pullStreamHeader_isHeader hpull)
      · rw [hparser] at hpull
        rcases pullStreamItem_parsed hpull with ⟨hdr, obj, rfl, rfl⟩ | ⟨_, obj, hdr, rfl, rfl⟩
        · exact calms_handleObject env now hget hparser cur.rest obj cur.pos
        · apply (calms_walks env now).fetchObject
          exact Still.calms (still_putAlike s hst ⟨rfl, rfl, Or.inr ⟨hdr, rfl⟩⟩)

/-! ## Events -/

theorem calms_onStreamData (env : DataEnv) (s : DataPlane) (now streamId : Nat) (data : Bytes)
    (endStream : Bool) : s.Calms (s.onStreamData env now streamId data endStream) := by
  rcases onStreamData_cases env s now streamId data endStream with
    hsame | ⟨chain, need, st, opened, drained, hst, hopen, hcurrent, hdrain, hrest⟩
  · rw [hsame]
    exact Calms.rfl
  have hopened : s.Still opened := by
    rw [hopen]
    apply still_insert
    intro trackAlias halias
    rw [hst] at halias
    have halias' : (s.streamState streamId { lastActivity := now }).trackAlias = some trackAlias :=
      halias
    rw [streamState] at halias'
    rcases Option.eq_none_or_eq_some (s.streams.get? streamId) with hget | ⟨old, hget⟩
    · rw [hget, Option.getD_none] at halias'
      cases halias'
    · rw [hget, Option.getD_some] at halias'
      exact ⟨old, hget, halias'⟩
  have hdrained : opened.Calms drained := by
    rcases hdrain with rfl | rfl
    · exact Calms.rfl
    · exact (calms_walks env now).drain (fun s st hst => calms_drainTurn env now hst) _ hcurrent
  have hcounted : s.Calms (drained.countHeld env now streamId) := by
    apply (hopened.calms.trans hdrained).trans
    apply (calms_ends env now).count
    intro st bytes hst
    have hinsert : drained.Still { drained with
        streams := drained.streams.insert streamId { st with held := st.chain.length } } :=
      still_insert fun _ halias => ⟨st, hst, halias⟩
    apply Still.calms
    exact hinsert.trans (Still.of_frame rfl rfl rfl rfl)
  rcases hrest with hrest | hrest
  · rw [hrest]
    exact hcounted
  · rw [hrest]
    exact hcounted.trans ((calms_ends env now).finish _ trivial)

theorem calms_step (env : DataEnv) (s : DataPlane) (event : Nat × DataPlaneEvent) :
    s.Calms (s.step env event) := by
  obtain ⟨now, event⟩ := event
  apply (calms_walks env now).step
  · exact fun _ _ => trivial
  · exact fun streamId data endStream _ => calms_onStreamData env s now streamId data endStream
  · intro trackAlias groupId obj consumed endOfGroup
    apply (calms_walks env now).datagram
    intro hclear
    have hdeliver := calmsIf_deliverArrival env s now ⟨trackAlias, obj, consumed, groupId, none⟩
    exact hdeliver.calms fun _ => hclear
  · intro requestId
    apply (calms_ends env now).fetchError
    · exact fun _ => Still.calms (Still.of_frame rfl rfl rfl rfl)
    · exact fun s _ st hst => Still.calms (still_insert fun _ halias => ⟨st, hst, halias⟩)

theorem calms_run (env : DataEnv) (events : List (Nat × DataPlaneEvent)) (s : DataPlane) :
    s.Calms (events.foldl (step env) s) := by
  induction events generalizing s with
  | nil => exact Calms.rfl
  | cons event events ih => exact (calms_step env s event).trans (ih _)

theorem hushed_initial : Hushed {} where
  agrees := by
    intro trackAlias
    constructor
    · intro hmem
      cases hmem
    · intro hbarred
      cases hbarred
  silent := Silent.nil
  swept := by
    intro trackAlias hmem
    cases hmem

/-- A run whose sweeps find every open stream of their track in the table of bindings: no object
of a malformed track is delivered or held. -/
theorem malformed_track_silent (env : DataEnv) (events : List (Nat × DataPlaneEvent))
    (hmissed : (run env events).missed = []) :
    Silent DataEvent.effect (run env events).log :=
  ((calms_run env events {} hmissed).2 hushed_initial).silent

/-! ### Where the sweep misses a stream -/

/-- A session that cancels nothing. -/
def quietEnv : DataEnv where
  prof := profileFor .d18
  maxObjectBytes := 64 * 1024 * 1024
  needed := fun _ chain => chain.length + 1
  acts := fun _ => []

/-- A stream of track 1; then its track ends at an object, and a datagram comes from past that
end; then the stream brings an object. -/
def barredEvents (streamType : UInt8) : List (Nat × DataPlaneEvent) :=
  [(0, .control
      { trackAliases := Dict.empty.insert 1 0
        objectHandlers := Dict.empty.insert 1 0 }),
    (0, .streamData 3 [streamType, 1, 0, 0x80] false),
    (0, .datagram 1 1 { objectId := 5, status := .endOfTrack } 1 false),
    (0, .datagram 1 2 { objectId := 0, payload := [9] } 1 false),
    (0, .streamData 3 [0, 1, 9] false)]

/-- A stream whose first object tells its subgroup is not in the table before that object. -/
theorem malformed_track_heard : ¬ Silent DataEvent.effect (run quietEnv (barredEvents 0x12)).log := by
  intro hsilent
  have heffects : (run quietEnv (barredEvents 0x12)).log.map DataEvent.effect =
      [.acts 1, .bars 1, .acts 1] := by decide +kernel
  have hmapped := hsilent.effects
  rw [heffects] at hmapped
  have hfree := hmapped [.acts 1, .bars 1] (.acts 1) [] 1 rfl rfl
  exact absurd hfree (by decide)

/-- A stream of subgroup 0 is. -/
theorem malformed_track_swept :
    (run quietEnv (barredEvents 0x10)).malformedAliases = [1] ∧
      Silent DataEvent.effect (run quietEnv (barredEvents 0x10)).log :=
  ⟨by decide +kernel, malformed_track_silent quietEnv (barredEvents 0x10) (by decide +kernel)⟩

end DataPlane

end AioMoqt.Session
