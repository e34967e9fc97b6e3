import AioMoqt.Session.DataPlane

/-!
# Across the data plane

What is shown of the data plane is a relation between a state and a later one, which composes.
If it holds across the few operations that touch what it is about, then it holds across all that
is built from them, whatever the callbacks in it do.
-/

namespace AioMoqt.Session

open AioMoqt.Lib AioMoqt.Lib.BigEndian AioMoqt.Messages

/-- An event of no object that arrives, no malformed track, and no end of a subgroup. -/
def DataEvent.Plain : DataEvent → Prop
  | .object _ _ | .held _ | .streamEnd _ _ _ | .malformed _ | .forgot _ => False
  | _ => True

/-- The stream that an event is about. -/
def DataPlaneEvent.stream? : DataPlaneEvent → Option Nat
  | .streamData streamId _ _ | .streamReset streamId _ | .stopSending streamId _ => some streamId
  | _ => none

/-- The stream is bound as before, and it has the same header or is of a FETCH. -/
structure DataStream.Alike (st st' : DataStream) : Prop where
  key : st'.key = st.key
  held : st'.held = st.held
  parser : (st'.parser = st.parser ∧ st'.groupId = st.groupId) ∨ ∃ hdr, st'.parser = some (.fetch hdr)

/-! ## Items -/

/-- An item that a stream starts with. -/
def StreamItem.isHeader : StreamItem → Bool
  | .padding | .subgroupHeader _ | .fetchHeader _ => true
  | .object _ _ | .fetchObject _ _ => false

theorem pullStreamHeader_isHeader {prof : DraftProfile} {cur last : Cursor} {item : StreamItem}
    (h : pullStreamHeader prof cur = .ok (item, last)) : item.isHeader = true := by
  obtain ⟨streamType, mid, -, hrest⟩ := Reader.bind_eq_ok.mp h
  split_ifs at hrest
  · obtain ⟨rfl, -⟩ := Reader.pure_eq_ok.mp hrest
    rfl
  · obtain ⟨hdr, mid, -, hpure⟩ := Reader.bind_eq_ok.mp hrest
    obtain ⟨rfl, -⟩ := Reader.pure_eq_ok.mp hpure
    rfl
  · obtain ⟨requestId, mid, -, hpure⟩ := Reader.bind_eq_ok.mp hrest
    obtain ⟨rfl, -⟩ := Reader.pure_eq_ok.mp hpure
    rfl
  · cases hrest

/-- What a stream with a parser brings. -/
theorem pullStreamItem_parsed {prof : DraftProfile} {maxObjectBytes : Nat}
    {needed : Option StreamParser → Bytes → Nat} {parser : StreamParser} {chain : Bytes}
    {item : StreamItem} {cur : Cursor}
    (h : pullStreamItem prof maxObjectBytes needed (some parser) chain = .ok (item, cur)) :
    (∃ old obj, parser = .subgroup old ∧ item = .object obj (old.advance obj.objectId)) ∨
      ∃ old obj hdr, parser = .fetch old ∧ item = .fetchObject obj hdr := by
  cases parser with
  | subgroup old =>
      left
      simp only [pullStreamItem, pullSubgroupObject] at h
      split at h
      · rename_i obj hdr last hread
        cases h
        obtain ⟨_, mid, _, hpure⟩ := Reader.bind_eq_ok.mp hread
        obtain ⟨heq, -⟩ := Reader.pure_eq_ok.mp hpure
        cases heq
        exact ⟨old, obj, rfl, rfl⟩
      · split_ifs at h
      · cases h
  | fetch old =>
      right
      simp only [pullStreamItem] at h
      cases hread : old.readObject prof maxObjectBytes ⟨0, chain⟩ with
      | error e =>
          rw [hread] at h
          cases h
      | ok result =>
          rw [hread] at h
          cases h
          exact ⟨old, _, _, rfl, rfl⟩

namespace DataPlane

/-! ## What no relation is about -/

/-- The plane without its handlers, its bounds and the ends that wait for a handler. -/
def core (s : DataPlane) : DataPlane :=
  { s with
    toControlTables := {}
    groupBound := .empty
    trackBound := .empty
    earlyStreamEnds := .empty }

@[simp] theorem noteObjectBound_core (s : DataPlane) (trackAlias groupId objectId : Nat)
    (status : ObjectStatus) (endOfGroupBit : Bool) :
    (s.noteObjectBound trackAlias groupId objectId status endOfGroupBit).core = s.core := by
  unfold noteObjectBound
  split_ifs <;> rfl

@[simp] theorem noteUnboundAlias_core (s : DataPlane) (trackAlias : Nat) :
    (s.noteUnboundAlias trackAlias).core = s.core := by
  unfold noteUnboundAlias
  split <;> rfl

@[simp] theorem fixGroupEnd_core (s : DataPlane) (st : DataStream) (key : SubgroupKey)
    (clean : Bool) : (s.fixGroupEnd st key clean).core = s.core := by
  unfold fixGroupEnd
  split
  · split <;> rfl
  · rfl

@[simp] theorem noteEarlyStreamEnd_core (s : DataPlane) (now trackAlias : Nat)
    (ended : StreamEnd) : (s.noteEarlyStreamEnd now trackAlias ended).core = s.core := by
  unfold noteEarlyStreamEnd
  split <;> rfl

/-- The end of a subgroup is logged; what waits for a handler is beside the core. -/
theorem reportStreamEnd_core (s : DataPlane) (now streamId : Nat) (key : SubgroupKey)
    (clean : Bool) (resetCode : Nat) :
    (s.reportStreamEnd now streamId key clean resetCode).core =
      { s with
        log := s.log ++ [.streamEnd (s.streamEndHandlers.get? key.trackAlias) key.trackAlias
          ⟨key.groupId, key.subgroupId, clean, resetCode⟩]
        history := s.history ++ [.ended streamId key] : DataPlane }.core := by
  unfold reportStreamEnd
  dsimp only
  split
  · rfl
  · rw [noteEarlyStreamEnd_core]

theorem closeSession_closed (s : DataPlane) (now : Nat) (errorCode : SessionCloseCode) :
    (s.closeSession now errorCode).closeErr ≠ none := by
  show (Option.or _ (some errorCode)) ≠ none
  simp

@[simp] theorem stop_plane (s : DataPlane) : (Turn.stop s).plane = s := rfl

@[simp] theorem more_plane (s : DataPlane) (st : DataStream) : (Turn.more s st).plane = s := rfl

/-! ## The state object of a stream -/

theorem putStream_of_open {s : DataPlane} {streamId : Nat} {old : DataStream}
    (h : s.streams.get? streamId = some old) (st : DataStream) :
    s.putStream streamId st = { s with streams := s.streams.insert streamId st } := by
  rw [putStream, if_pos (Dict.mem_keys.mpr (by simp [h]))]

theorem putStream_of_gone {s : DataPlane} {streamId : Nat} (h : s.streams.get? streamId = none)
    (st : DataStream) : s.putStream streamId st = s := by
  rw [putStream, if_neg (fun hkey => Dict.mem_keys.mp hkey h)]

/-- The state object that the loop holds is the session's, if the session has one. -/
def Current (s : DataPlane) (streamId : Nat) (st : DataStream) : Prop :=
  ∀ old, s.streams.get? streamId = some old → old = st

theorem current_of_open {s : DataPlane} {streamId : Nat} {st : DataStream}
    (h : s.streams.get? streamId = some st) : s.Current streamId st := by
  intro old hold
  rw [h, Option.some.injEq] at hold
  exact hold.symm

theorem current_of_core {s s' : DataPlane} (h : s'.core = s.core) {streamId : Nat} {st : DataStream}
    (hst : s.Current streamId st) : s'.Current streamId st := by
  have hstreams : s'.streams = s.streams := (congrArg streams h :)
  unfold Current
  rw [hstreams]
  exact hst

theorem current_putStream (s : DataPlane) (streamId : Nat) (st : DataStream) :
    (s.putStream streamId st).Current streamId st := by
  intro old hold
  rcases Option.eq_none_or_eq_some (s.streams.get? streamId) with hget | ⟨before, hget⟩
  · rw [putStream_of_gone hget, hget] at hold
    cases hold
  · rw [putStream_of_open hget] at hold
    have hself : (s.streams.insert streamId st).get? streamId = some old := hold
    rw [Dict.get?_insert, if_pos rfl, Option.some.injEq] at hself
    exact hself.symm

theorem current_streamState (s : DataPlane) (streamId : Nat) (st : DataStream) :
    s.Current streamId (s.streamState streamId st) := by
  intro old hold
  rw [streamState, hold, Option.getD_some]

section Bindings

variable {R : DataPlane → DataPlane → Prop} {streamId : Nat} {key : SubgroupKey}

/-- What a subgroup's binding is made of: the stream that had the key loses it, the key is
granted, and the stream it is granted to is told. -/
theorem bindSubgroupStream_steps (refl : ∀ s, R s s)
    (trans : ∀ {a b c}, R a b → R b c → R a c)
    (rekey : ∀ (s : DataPlane) {id : Nat} {st : DataStream} (key : Option StreamKey),
      s.streams.get? id = some st →
        R s { s with streams := s.streams.insert id { st with key := key } })
    (logged : ∀ (s : DataPlane) (history : List (Ownership.Event Nat SubgroupKey)),
      R s { s with history := history })
    (grant : ∀ s : DataPlane, R s { s with
      subgroupStreamByKey := s.subgroupStreamByKey.insert key streamId
      history := s.history ++ [.taken streamId key] })
    (s : DataPlane) : R s (s.bindSubgroupStream streamId key) := by
  unfold bindSubgroupStream
  dsimp only
  split
  on_goal 1 => refine trans ?_ (grant _)
  on_goal 2 =>
    rename_i st hst
    refine trans (trans ?_ (grant _)) (rekey _ _ hst)
  all_goals
    split
    · exact refl s
    · split_ifs
      · exact refl s
      · split
        · exact refl s
        · rename_i existing _ _ _ old hold
          exact trans (rekey s none hold) (logged _ _)

end Bindings

/-- An object is checked once its stream has the new parser, and the key that it told. -/
theorem handleObject_cases (env : DataEnv) (s : DataPlane) (now streamId : Nat) (st : DataStream)
    (obj : ObjectHeader) (hdr : SubgroupHeader) (consumed : Nat) :
    ∃ bound : DataPlane,
      (bound = s.putStream streamId { st with parser := some (.subgroup hdr) } ∨
        ∃ key, bound = (s.putStream streamId
          { st with parser := some (.subgroup hdr) }).bindSubgroupStream streamId key) ∧
      s.handleObject env now streamId st obj hdr consumed =
        bound.checkObject env now streamId
          (bound.streamState streamId { st with parser := some (.subgroup hdr) }) obj hdr
          consumed := by
  refine ⟨_, ?_, rfl⟩
  split
  · cases subgroupKey hdr with
    | none => exact Or.inl rfl
    | some key => exact Or.inr ⟨key, rfl⟩
  · exact Or.inl rfl

/-! ## Rules -/

/-- A stream that a table of the session names. -/
def Names (s : DataPlane) (streamId : Nat) : Prop :=
  streamId ∈ s.streams.keys ∨ ∃ key, s.subgroupStreamByKey.get? key = some streamId

theorem names_streamsOfTrack {s : DataPlane} {trackAlias streamId : Nat}
    (h : streamId ∈ s.streamsOfTrack trackAlias) : s.Names streamId := by
  unfold streamsOfTrack at h
  obtain ⟨entry, hentry, rfl⟩ := List.mem_map.mp h
  exact Or.inr ⟨entry.1, Dict.get?_eq_some.mpr (List.mem_filter.mp hentry).1⟩

/-- A relation that holds across the end of a stream; `own` for the streams that may end. -/
structure Ends (env : DataEnv) (now : Nat) (own : Nat → Prop)
    (r : DataPlane → DataPlane → Prop) : Prop where
  refl : ∀ s, r s s
  trans : ∀ {s s' s''}, r s s' → r s' s'' → r s s''
  /-- The streams that a table names may end. -/
  known : ∀ {s s'}, ((∀ streamId, s.Names streamId → own streamId) → r s s') → r s s'
  aside : ∀ {s s'}, s'.core = s.core → r s s'
  logged : ∀ (s : DataPlane) (event : DataEvent), event.Plain →
    r s { s with log := s.log ++ [event] }
  tear : ∀ (s : DataPlane) {streamId}, own streamId → r s (s.markStreamTornDown now streamId)
  cleanup : ∀ (s : DataPlane) {streamId} (clean : Bool) (resetCode : Nat), own streamId →
    r s (s.cleanupStream env now streamId clean resetCode)
  close : ∀ (s : DataPlane) (errorCode : SessionCloseCode), r s (s.closeSession now errorCode)

namespace Ends

variable {env : DataEnv} {now : Nat} {own : Nat → Prop} {r : DataPlane → DataPlane → Prop}
variable (h : Ends env now own r)

include h

/-- Many steps, one after the other. -/
theorem foldl {α : Type} {f : DataPlane → α → DataPlane} {as : List α}
    (hf : ∀ a ∈ as, ∀ s, r s (f s a)) (s : DataPlane) : r s (as.foldl f s) := by
  induction as generalizing s with
  | nil => exact h.refl s
  | cons a as ih =>
      have hfirst := hf a List.mem_cons_self s
      exact h.trans hfirst (ih (fun b hb => hf b (List.mem_cons_of_mem a hb)) (f s a))

theorem reject (s : DataPlane) {streamId : Nat} (hown : own streamId) (errorCode : Nat) :
    r s (s.rejectStream env now streamId errorCode) :=
  h.trans (h.logged s (.stopSending streamId errorCode) trivial) (h.cleanup _ false errorCode hown)

/-- The streams of a track are rejected. -/
theorem rejects (s : DataPlane) (trackAlias errorCode : Nat) :
    r s ((s.streamsOfTrack trackAlias).foldl
      (fun s streamId => s.rejectStream env now streamId errorCode) s) := by
  apply h.known
  intro hown
  apply h.foldl
  intro streamId hmem s
  exact h.reject s (hown streamId (names_streamsOfTrack hmem)) errorCode

theorem sweep (s : DataPlane) (trackAlias : Nat)
    (hmark : r s { s with
      malformedAliases := trackAlias :: s.malformedAliases
      missed := s.missed ++ s.missedStreams trackAlias
      log := s.log ++ [.malformed trackAlias] }) : r s (s.sweepTrack env now trackAlias) := by
  have hswept := h.trans hmark (h.rejects _ trackAlias StreamResetCode.malformedTrack.code)
  unfold sweepTrack
  dsimp only
  split
  · exact hswept
  · exact h.trans hswept (h.aside rfl)

theorem finish (s : DataPlane) {streamId : Nat} (hown : own streamId) :
    r s (s.finishStream env now streamId) := by
  unfold finishStream
  split
  · exact h.refl s
  · split
    · exact h.close s _
    · exact h.cleanup s true 0 hown

theorem reap (s : DataPlane) (claimed : Nat → Bool) : r s (s.reapStreams env now claimed) := by
  apply h.known
  intro hown
  unfold reapStreams
  split
  · exact h.refl s
  · apply h.foldl
    intro entry hentry s
    have hstream := hown entry.1 (Or.inl (List.mem_map.mpr ⟨entry, hentry, rfl⟩))
    unfold reapStream
    split
    · exact h.refl s
    · split
      · exact h.reject s hstream _
      · split
        · exact h.reject s hstream _
        · exact h.refl s
      · exact h.refl s

theorem registerEnds (s : DataPlane) (trackAlias : Nat) (cb : Callback) :
    r s (s.registerStreamEndHandler now trackAlias cb) := by
  have hreplay : ∀ early ∈ (s.earlyStreamEnds.get? trackAlias).getD [], ∀ s : DataPlane,
      r s (replayEnd now cb trackAlias s early) := by
    intro early _ s
    unfold replayEnd
    split
    · exact h.refl s
    · exact h.logged s (.replayedEnd cb trackAlias early.2) trivial
  have hbound : r s
      { s with
        streamEndHandlers := s.streamEndHandlers.insert trackAlias cb
        earlyStreamEnds := s.earlyStreamEnds.erase trackAlias } := h.aside rfl
  exact h.trans hbound (h.foldl hreplay _)

/-- The unparsed bytes of a stream are counted. -/
theorem count (s : DataPlane) (streamId : Nat)
    (hput : ∀ st (bytes : Int), s.streams.get? streamId = some st →
      r s { s with
        rxHeldBytes := bytes
        streams := s.streams.insert streamId { st with held := st.chain.length } }) :
    r s (s.countHeld env now streamId) := by
  unfold countHeld
  split
  · exact h.refl s
  · rename_i st hst
    have hcounted := hput st (s.rxHeldBytes + st.chain.length - st.held) hst
    split
    · exact h.refl s
    · dsimp only
      split
      · exact h.trans hcounted (h.close _ _)
      · exact hcounted

/-- The stream of a FETCH that failed loses its key. -/
theorem fetchError (s : DataPlane) (requestId : Nat)
    (hunbind : ∀ s : DataPlane,
      r s { s with fetchStreamByRequest := s.fetchStreamByRequest.erase requestId })
    (hrekey : ∀ (s : DataPlane) {streamId : Nat} {st : DataStream},
      s.streams.get? streamId = some st →
        r s { s with streams := s.streams.insert streamId { st with key := none } }) :
    r s (s.handleFetchError requestId) := by
  unfold handleFetchError
  split
  · exact h.refl s
  · rename_i streamId _
    have hunbound := h.trans (hunbind s)
      (h.logged _ (.stopSending streamId StreamResetCode.cancelled.code) trivial)
    dsimp only
    split
    · exact hunbound
    · rename_i st hst
      exact h.trans hunbound (hrekey _ hst)

/-- Objects go to the handler that came for them. -/
theorem replays {after : DataPlane → DataPlane} (hafter : ∀ s, r s (after s))
    (hearly : ∀ (s : DataPlane) objects count bytes, r s { s with
      earlyObjects := objects
      earlyObjectsCount := count
      earlyObjectsBytes := bytes }) (s : DataPlane) (trackAlias : Nat) (cb : Callback) :
    r s (s.bindHandlerWith now after trackAlias cb) := by
  have hbound : r s { s with objectHandlers := s.objectHandlers.insert trackAlias cb } :=
    h.aside rfl
  have htaken := h.trans hbound (hearly _ (s.earlyObjects.erase trackAlias) s.earlyObjectsCount
    s.earlyObjectsBytes)
  apply h.trans htaken
  apply h.foldl
  intro early _ s
  have hcounted := hearly s s.earlyObjects (s.earlyObjectsCount - 1)
    (s.earlyObjectsBytes - early.arrival.consumed)
  unfold replayObject
  dsimp only
  split
  · exact hcounted
  · exact h.trans (h.trans hcounted (h.logged _ (.replayed cb early.arrival) trivial)) (hafter _)

end Ends

/-- What each action keeps, whatever the callbacks in it do, a callback keeps: by induction on
how deep the callbacks go. -/
theorem runCallback_rel {env : DataEnv} {now : Nat} {r : DataPlane → DataPlane → Prop}
    (hrefl : ∀ s, r s s) (htrans : ∀ {s s' s''}, r s s' → r s' s'' → r s s'')
    (hperform : ∀ {after : DataPlane → DataPlane}, (∀ s, r s (after s)) →
      ∀ s act, r s (perform env now after s act)) (depth : Nat) (s : DataPlane) :
    r s (runCallback env now depth s) := by
  induction depth generalizing s with
  | zero => exact hrefl s
  | succ depth ih =>
    unfold runCallback
    generalize env.acts s.log = acts
    induction acts generalizing s with
    | nil => exact hrefl s
    | cons act acts ihacts => exact htrans (hperform ih s act) (ihacts _)

/-- A relation that holds across a callback too. -/
structure Walks (env : DataEnv) (now : Nat) (own : Nat → Prop)
    (r : DataPlane → DataPlane → Prop) : Prop extends Ends env now own r where
  sweeps : ∀ (s : DataPlane) (trackAlias : Nat), r s (s.sweepTrack env now trackAlias)
  forget : ∀ (s : DataPlane) (trackAlias : Nat), r s (s.forgetTrackBounds trackAlias)
  discard : ∀ (s : DataPlane) (trackAlias : Nat), r s (s.discardEarlyObjects trackAlias)
  binds : ∀ {after : DataPlane → DataPlane}, (∀ s, r s (after s)) →
    ∀ (s : DataPlane) (trackAlias : Nat) (cb : Callback),
      r s (s.bindHandlerWith now after trackAlias cb)

namespace Walks

variable {env : DataEnv} {now : Nat} {own : Nat → Prop} {r : DataPlane → DataPlane → Prop}
variable (h : Walks env now own r)

include h

theorem malformed (s : DataPlane) (trackAlias : Option Nat) {streamId : Option Nat}
    (hown : ∀ j, streamId = some j → own j) :
    r s (s.malformedTrack env now trackAlias streamId) := by
  have hrejected : r s (streamId.elim s fun streamId =>
      s.rejectStream env now streamId StreamResetCode.malformedTrack.code) := by
    cases streamId with
    | none => exact h.refl s
    | some j => exact h.reject s (hown j rfl) _
  unfold malformedTrack
  dsimp only
  split
  · exact hrejected
  · split
    · exact hrejected
    · exact h.trans hrejected (h.sweeps _ _)

/-- The track of a stream that may end. -/
theorem malformedAt (s : DataPlane) (trackAlias : Option Nat) {streamId : Nat}
    (hown : own streamId) : r s (s.malformedTrack env now trackAlias (some streamId)) := by
  apply h.malformed
  intro j hj
  cases hj
  exact hown

theorem malformedAlone (s : DataPlane) (trackAlias : Option Nat) :
    r s (s.malformedTrack env now trackAlias none) := by
  apply h.malformed
  intro j hj
  cases hj

theorem cancel (s : DataPlane) (trackAlias : Nat) : r s (s.cancelMalformed env now trackAlias) := by
  have hunwatched : r s { s with timingWatch := s.timingWatch.erase trackAlias } := h.aside rfl
  exact h.trans hunwatched (h.malformedAlone _ _)

theorem unregister (s : DataPlane) (trackAlias : Nat) :
    r s (s.unregisterObjectHandler trackAlias) := by
  have hunbound : r s { s with objectHandlers := s.objectHandlers.erase trackAlias } := h.aside rfl
  exact h.trans hunbound (h.discard _ trackAlias)

theorem performs {after : DataPlane → DataPlane} (hafter : ∀ s, r s (after s)) (s : DataPlane)
    (act : CallbackAction) : r s (perform env now after s act) := by
  cases act with
  | cancelMalformed trackAlias => exact h.cancel s trackAlias
  | bindObjectHandler trackAlias cb => exact h.binds hafter s trackAlias cb
  | unregisterObjectHandler trackAlias => exact h.unregister s trackAlias
  | close errorCode => exact h.close s errorCode

theorem callback (s : DataPlane) : r s (s.afterCallback env now) :=
  runCallback_rel h.refl h.trans h.performs _ s

/-- A callback is called, and what it does. -/
theorem call (s : DataPlane) {event : DataEvent} (hplain : event.Plain) :
    r s (({ s with log := s.log ++ [event] } : DataPlane).afterCallback env now) :=
  h.trans (h.logged s event hplain) (h.callback _)

theorem deliver {s : DataPlane} {arrival : Arrival}
    (hobject : ∀ cb, r s { s with log := s.log ++ [.object cb arrival] })
    (hheld : r s (s.holdEarlyObject now arrival)) : r s (s.deliverArrival env now arrival) := by
  unfold deliverArrival
  split
  · exact h.trans (hobject _) (h.callback _)
  · exact hheld

theorem release (s : DataPlane) (trackAlias requestId : Nat) :
    r s (s.releaseFinishedTrack now trackAlias requestId) := by
  apply h.known
  intro hown
  unfold releaseFinishedTrack
  split
  · exact h.refl s
  · have hrelease : ∀ streamId ∈ s.streamsOfTrack trackAlias, ∀ s : DataPlane,
        r s (releaseStream now s streamId) := fun streamId hmem s =>
      h.trans (h.logged s (.stopSending streamId StreamResetCode.cancelled.code) trivial)
        (h.tear _ (hown streamId (names_streamsOfTrack hmem)))
    have hreleased := h.foldl hrelease s
    dsimp only
    set released := (s.streamsOfTrack trackAlias).foldl (releaseStream now) s
    set cleared : DataPlane :=
      { released with
        trackAliases := released.trackAliases.erase trackAlias
        objectHandlers := released.objectHandlers.erase trackAlias
        timingWatch := released.timingWatch.erase trackAlias
        streamEndHandlers := released.streamEndHandlers.erase trackAlias
        trackDefaultPriority := released.trackDefaultPriority.erase trackAlias
        earlyStreamEnds := released.earlyStreamEnds.erase trackAlias }
    have hcleared : r released cleared := h.aside rfl
    have hdiscarded := h.trans (h.trans hreleased hcleared) (h.discard cleared trackAlias)
    exact h.trans hdiscarded (h.forget _ trackAlias)

theorem datagram {s : DataPlane} {trackAlias groupId : Nat} {obj : ObjectHeader} {consumed : Nat}
    (hdeliver : trackAlias ∉ s.malformedAliases →
      r s (s.deliverArrival env now ⟨trackAlias, obj, consumed, groupId, none⟩))
    (endOfGroup : Bool) :
    r s (s.deliverDatagram env now trackAlias groupId obj consumed endOfGroup) := by
  unfold deliverDatagram
  split_ifs with hmalformed
  · exact h.refl s
  · exact h.malformedAlone s _
  · exact h.trans (hdeliver hmalformed) (h.aside (noteObjectBound_core _ _ _ _ _ _))

/-- A step, where it holds across the bytes of a stream, a datagram and a FETCH that failed. -/
theorem step {s : DataPlane} {event : DataPlaneEvent}
    (hown : ∀ streamId, event.stream? = some streamId → own streamId)
    (hdata : ∀ streamId data endStream, event = .streamData streamId data endStream →
      r s (s.onStreamData env now streamId data endStream))
    (hdatagram : ∀ trackAlias groupId obj consumed endOfGroup,
      r s (s.deliverDatagram env now trackAlias groupId obj consumed endOfGroup))
    (hfetch : ∀ requestId, r s (s.handleFetchError requestId)) :
    r s (s.step env (now, event)) := by
  cases event with
  | streamData streamId data endStream =>
      unfold DataPlane.step
      dsimp only
      split
      · exact h.refl s
      · exact hdata streamId data endStream rfl
  | streamReset streamId errorCode => exact h.cleanup s false errorCode (hown streamId rfl)
  | stopSending streamId requestBound =>
      unfold DataPlane.step
      dsimp only
      split
      · exact h.refl s
      · exact h.cleanup s false 0 (hown streamId rfl)
  | datagram trackAlias groupId obj consumed endOfGroup =>
      exact hdatagram trackAlias groupId obj consumed endOfGroup
  | reap claimed => exact h.reap s claimed
  | fetchError requestId => exact hfetch requestId
  | releaseFinishedTrack trackAlias requestId => exact h.release s trackAlias requestId
  | bindObjectHandler trackAlias cb => exact h.binds (fun s => h.callback s) s trackAlias cb
  | unregisterObjectHandler trackAlias => exact h.unregister s trackAlias
  | registerStreamEndHandler trackAlias cb => exact h.registerEnds s trackAlias cb
  | unregisterStreamEndHandler trackAlias => exact h.aside rfl
  | cancelMalformed trackAlias => exact h.cancel s trackAlias
  | forgetTrackBounds trackAlias => exact h.forget s trackAlias
  | control tables => exact h.aside rfl
  | close errorCode => exact h.close s errorCode

/-! ## Turns of the drain loop -/

variable {streamId : Nat} (hown : own streamId)

include hown

theorem subgroupHeader {s : DataPlane} {st : DataStream} {hdr : SubgroupHeader}
    (hbind : ∀ s key, r s (s.bindSubgroupStream streamId key))
    (hput : r (s.noteUnboundAlias hdr.trackAlias)
      ((s.noteUnboundAlias hdr.trackAlias).putStream streamId
        { st with
          parser := some (.subgroup hdr)
          groupId := some hdr.groupId
          subgroupId := hdr.subgroupId })) :
    r s (s.handleSubgroupHeader env now streamId st hdr).plane := by
  have hnoted : r s (s.noteUnboundAlias hdr.trackAlias) := h.aside (noteUnboundAlias_core s _)
  have hkeyed : ∀ s, r s ((subgroupKey hdr).elim s fun key => s.bindSubgroupStream streamId key) := by
    intro s
    cases subgroupKey hdr with
    | none => exact h.refl s
    | some key => exact hbind s key
  unfold handleSubgroupHeader
  split_ifs
  · exact h.reject s hown _
  · exact h.trans (h.trans hnoted (hkeyed _)) (h.malformedAt _ _ hown)
  · exact h.trans (h.trans hnoted hput) (hkeyed _)

theorem fetchHeader {s : DataPlane} {st : DataStream} {requestId : Nat}
    (hbind : ∀ hdr, s.admitFetchStream env streamId requestId = some hdr →
      r s (({ s with fetchStreamByRequest := s.fetchStreamByRequest.insert requestId streamId } :
        DataPlane).putStream streamId
          { st with parser := some (.fetch hdr), key := some (.fetch requestId) })) :
    r s (s.handleFetchHeader env now streamId st requestId).plane := by
  unfold handleFetchHeader
  split
  · exact h.reject s hown _
  · rename_i hdr hadmit
    exact hbind hdr hadmit

/-- The checks on an object.  `k` holds across what comes before it is delivered, and `q` across
the whole. -/
theorem checkObject {k q : DataPlane → DataPlane → Prop}
    (hbefore : ∀ {s s' s''}, k s s' → q s' s'' → q s s'')
    (hafter : ∀ {s s' s''}, q s s' → r s' s'' → q s s'') (hlift : ∀ {s s'}, r s s' → q s s')
    (hput : ∀ (s : DataPlane) {st st'}, s.Current streamId st → st.Alike st' →
      k s (s.putStream streamId st'))
    {hdr : SubgroupHeader} (hdeliver : ∀ (s : DataPlane) arrival,
      arrival.trackAlias = hdr.trackAlias → q s (s.deliverArrival env now arrival))
    {s : DataPlane} {st : DataStream} (hst : s.Current streamId st) (obj : ObjectHeader)
    (consumed : Nat) : q s (s.checkObject env now streamId st obj hdr consumed).plane := by
  have haccept : ∀ {s : DataPlane} {st : DataStream}, s.Current streamId st →
      q s (s.acceptObject env now streamId st obj hdr consumed).plane := by
    intro s st hst
    have halike : st.Alike { st with subgroupId := st.subgroupId.or hdr.subgroupId } :=
      ⟨rfl, rfl, Or.inl ⟨rfl, rfl⟩⟩
    have hstored := hput s hst halike
    have hdelivered := hbefore hstored (hdeliver _
      ⟨hdr.trackAlias, s.describeObject obj hdr, consumed, st.groupId.getD hdr.groupId,
        st.subgroupId.or hdr.subgroupId⟩ rfl)
    unfold acceptObject
    dsimp only
    split
    · rw [stop_plane]
      apply hafter hdelivered
      exact h.trans (h.aside (noteObjectBound_core _ _ _ _ _ _)) (h.cleanup _ true 0 hown)
    · exact hdelivered
  unfold DataPlane.checkObject
  split
  · rw [stop_plane]
    exact hlift (h.malformedAt s _ hown)
  · dsimp only
    have halike : st.Alike { st with objectId := some obj.objectId } :=
      ⟨rfl, rfl, Or.inl ⟨rfl, rfl⟩⟩
    have hstored := hput s hst halike
    split
    · exact hbefore hstored (hlift (h.close _ _))
    · split
      · rw [stop_plane]
        exact hbefore hstored (hlift (h.malformedAt _ _ hown))
      · exact hbefore hstored (haccept (current_putStream s streamId _))

omit hown in
theorem fetchObject {s : DataPlane} {st : DataStream} {hdr : FetchHeader}
    (hput : r s (s.putStream streamId { st with parser := some (.fetch hdr) }))
    (obj : FetchObject) (consumed : Nat) :
    r s (s.handleFetchObject env now streamId st obj hdr consumed).plane := by
  have hcall : ∀ (cb : Option Callback) (event : Callback → DataEvent),
      (∀ cb, (event cb).Plain) →
        r s (cb.elim (s.putStream streamId { st with parser := some (.fetch hdr) }) fun cb =>
          ({ s.putStream streamId { st with parser := some (.fetch hdr) } with
            log := (s.putStream streamId { st with parser := some (.fetch hdr) }).log ++ [event cb] } :
              DataPlane).afterCallback env now) := by
    intro cb event hplain
    cases cb with
    | none => exact hput
    | some cb => exact h.trans hput (h.call _ (hplain cb))
  unfold handleFetchObject
  dsimp only
  split
  · exact hcall _ _ fun _ => trivial
  · exact hcall _ _ fun _ => trivial

theorem parseFailed {s : DataPlane} {st : DataStream}
    (hput : ∀ need, r s (s.putStream streamId { st with need := need }))
    (parser : Option StreamParser) (e : MoqtError) :
    r s (s.parseFailed env now streamId st parser e) := by
  unfold DataPlane.parseFailed
  split
  · exact hput _
  · exact h.reject s hown _
  · exact h.malformedAt s _ hown
  · exact h.close s _
  · exact h.reject s hown _

omit hown in
/-- The loop, by induction on the turns that it may take. -/
theorem drain (hturn : ∀ (s : DataPlane) st, s.Current streamId st →
      r s (s.drainTurn env now streamId st).plane) (fuel : Nat) {st : DataStream}
    {s : DataPlane} (hst : s.Current streamId st) :
    r s (drainStream env now streamId fuel st s) := by
  induction fuel generalizing st s with
  | zero => exact h.refl s
  | succ fuel ih =>
      have hfirst := hturn s st hst
      rw [drainStream]
      split_ifs
      · exact h.refl s
      · split
        · rename_i s' hstop
          rw [hstop] at hfirst
          exact hfirst
        · rename_i s' st' hmore
          rw [hmore] at hfirst
          exact h.trans hfirst (ih (current_streamState s' streamId st'))

end Walks

/-- What the bytes of a stream do: they are put to its state object, the loop may drain it, what is
left is counted, and a FIN ends it. -/
theorem onStreamData_cases (env : DataEnv) (s : DataPlane) (now streamId : Nat) (data : Bytes)
    (endStream : Bool) :
    s.onStreamData env now streamId data endStream = s ∨
      ∃ (chain : Bytes) (need : Nat) (st : DataStream) (opened drained : DataPlane),
        st = { s.streamState streamId { lastActivity := now } with chain := chain, need := need } ∧
        opened = { s with streams := s.streams.insert streamId st } ∧
        opened.Current streamId st ∧
        (drained = opened ∨
          drained = drainStream env now streamId st.chain.length st opened) ∧
        (s.onStreamData env now streamId data endStream = drained.countHeld env now streamId ∨
          s.onStreamData env now streamId data endStream =
            (drained.countHeld env now streamId).finishStream env now streamId) := by
  unfold onStreamData
  split
  · exact Or.inl rfl
  · dsimp only
    set old := s.streamState streamId { lastActivity := now }
    set ready : Bool := decide (old.need ≤ (old.chain ++ data).length)
    set need := if ready = true then 1 else old.need
    set st : DataStream := { old with chain := old.chain ++ data, need := need } with hst
    set opened : DataPlane := { s with streams := s.streams.insert streamId st } with hopened
    set drained := if ready = true then drainStream env now streamId st.chain.length st opened
      else opened with hdrained
    have hcurrent : opened.Current streamId st :=
      current_of_open ((Dict.get?_insert _ _ _ _).trans (if_pos rfl))
    have hdrain : drained = opened ∨
        drained = drainStream env now streamId st.chain.length st opened := by
      rw [hdrained]
      split
      · exact Or.inr rfl
      · exact Or.inl rfl
    refine Or.inr ⟨old.chain ++ data, need, st, opened, drained, hst, hopened, hcurrent, hdrain, ?_⟩
    split
    · exact Or.inr rfl
    · exact Or.inl rfl

end DataPlane

end AioMoqt.Session
