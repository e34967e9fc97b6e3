import AioMoqt.Session.Proofs.DataSteps
import AioMoqt.Session.UniStreams

/-!
# The streams that a session knows

The tables of the data plane name only streams that it was given bytes of.  What a call does
beyond its own stream concerns streams that a table names already.
-/

namespace AioMoqt.Session.DataPlane

open AioMoqt.Lib AioMoqt.Lib.BigEndian AioMoqt.Messages

variable {p : Nat → Prop}

/-- The tables name only these streams. -/
structure Confined (p : Nat → Prop) (s : DataPlane) : Prop where
  intro ::
  streams : ∀ streamId ∈ s.streams.keys, p streamId
  tornDown : ∀ streamId ∈ s.streamTornDown.keys, p streamId
  bound : ∀ key streamId, s.subgroupStreamByKey.get? key = some streamId → p streamId

def Confines (p : Nat → Prop) (s s' : DataPlane) : Prop := s.Confined p → s'.Confined p

theorem Confines.trans {s s' s'' : DataPlane} (h : Confines p s s') (h' : Confines p s' s'') :
    Confines p s s'' := fun hs => h' (h hs)

theorem Confines.of_frame {s s' : DataPlane} (hstreams : s'.streams.keys = s.streams.keys)
    (htorn : s'.streamTornDown = s.streamTornDown)
    (hbound : s'.subgroupStreamByKey = s.subgroupStreamByKey) : Confines p s s' := by
  intro h
  constructor
  · rw [hstreams]
    exact h.streams
  · rw [htorn]
    exact h.tornDown
  · rw [hbound]
    exact h.bound

theorem Confines.of_core {s s' : DataPlane} (h : s'.core = s.core) : Confines p s s' := by
  have hstreams : s'.streams = s.streams := (congrArg streams h :)
  have htorn : s'.streamTornDown = s.streamTornDown := (congrArg streamTornDown h :)
  have hbound : s'.subgroupStreamByKey = s.subgroupStreamByKey :=
    (congrArg subgroupStreamByKey h :)
  exact Confines.of_frame (by rw [hstreams]) htorn hbound

theorem keys_insert_old {d : Dict Nat DataStream} {streamId : Nat} {old : DataStream}
    (hold : d.get? streamId = some old) (st : DataStream) : (d.insert streamId st).keys = d.keys := by
  have hmem : streamId ∈ d.keys := Dict.mem_keys.mpr (by rw [hold]; exact Option.some_ne_none old)
  rw [Dict.keys_insert, if_pos hmem]

/-- A stream gets another state. -/
theorem confines_rekey (s : DataPlane) {streamId : Nat} {old : DataStream}
    (hold : s.streams.get? streamId = some old) (st : DataStream) :
    Confines p s { s with streams := s.streams.insert streamId st } :=
  Confines.of_frame (keys_insert_old hold st) rfl rfl

theorem confines_putStream (s : DataPlane) (streamId : Nat) (st : DataStream) :
    Confines p s (s.putStream streamId st) := by
  cases hget : s.streams.get? streamId with
  | none =>
      rw [putStream_of_gone hget]
      exact id
  | some old =>
      rw [putStream_of_open hget]
      exact confines_rekey s hget st

theorem confines_markStreamTornDown (s : DataPlane) (now : Nat) {streamId : Nat}
    (hstream : p streamId) : Confines p s (s.markStreamTornDown now streamId) := by
  intro h
  have hinsert : ∀ j ∈ (s.streamTornDown.insert streamId now).keys, p j := by
    intro j hj
    rw [Dict.keys_insert] at hj
    split_ifs at hj
    · exact h.tornDown j hj
    · rcases List.mem_append.mp hj with hj | hj
      · exact h.tornDown j hj
      · rw [List.mem_singleton.mp hj]
        exact hstream
  unfold markStreamTornDown
  dsimp only
  split_ifs
  · refine ⟨h.streams, ?_, h.bound⟩
    intro j hj
    apply hinsert
    simp only [Dict.keys, Dict.filter, List.mem_map, List.mem_filter] at hj ⊢
    obtain ⟨entry, hentry, rfl⟩ := hj
    exact ⟨entry, hentry.1, rfl⟩
  · exact ⟨h.streams, hinsert, h.bound⟩

theorem confines_erase (s : DataPlane) (streamId : Nat) :
    Confines p s { s with streams := s.streams.erase streamId } := by
  intro h
  refine ⟨?_, h.tornDown, h.bound⟩
  intro j hj
  rw [Dict.mem_keys, Dict.get?_erase] at hj
  split_ifs at hj
  · exact absurd rfl hj
  · exact h.streams j (Dict.mem_keys.mpr hj)

theorem confines_unbind (s : DataPlane) (key : SubgroupKey) :
    Confines p s { s with subgroupStreamByKey := s.subgroupStreamByKey.erase key } := by
  intro h
  refine ⟨h.streams, h.tornDown, ?_⟩
  intro key' j hj
  exact h.bound key' j (Dict.erase_sub _ key key' j hj)

theorem confines_cleanupStream (env : DataEnv) (s : DataPlane) (now : Nat) {streamId : Nat}
    (hstream : p streamId) (clean : Bool) (resetCode : Nat) :
    Confines p s (s.cleanupStream env now streamId clean resetCode) := by
  unfold cleanupStream
  dsimp only
  set gone := ({ s with streams := s.streams.erase streamId } : DataPlane).markStreamTornDown now
    streamId
  have hgone : Confines p s gone :=
    (confines_erase s streamId).trans (confines_markStreamTornDown _ now hstream)
  split
  · exact hgone
  · rename_i st _
    set counted : DataPlane := { gone with rxHeldBytes := gone.rxHeldBytes - st.held }
    have hcounted : Confines p s counted := hgone.trans (Confines.of_frame rfl rfl rfl)
    split
    · exact hcounted
    · rename_i key _
      set fixed := counted.fixGroupEnd st key clean
      have hfixed : Confines p counted fixed := Confines.of_core (fixGroupEnd_core counted st key clean)
      have hended : Confines p fixed (fixed.reportStreamEnd now streamId key clean resetCode) := by
        refine Confines.trans ?_
          (Confines.of_core (reportStreamEnd_core fixed now streamId key clean resetCode))
        exact Confines.of_frame rfl rfl rfl
      exact ((hcounted.trans hfixed).trans hended).trans (confines_unbind _ key)
    · exact hcounted.trans (Confines.of_frame rfl rfl rfl)

theorem confines_closeSession (s : DataPlane) (now : Nat) (errorCode : SessionCloseCode) :
    Confines p s (s.closeSession now errorCode) := by
  intro h
  have htorn : ∀ {ids : List Nat} {s : DataPlane}, (∀ j ∈ ids, p j) → s.Confined p →
      (ids.foldl (fun s j => s.markStreamTornDown now j) s).Confined p := by
    intro ids
    induction ids with
    | nil => exact fun _ hs => hs
    | cons j ids ih =>
        intro s hids hs
        apply ih fun i hi => hids i (List.mem_cons_of_mem j hi)
        exact confines_markStreamTornDown s now (hids j List.mem_cons_self) hs
  have hclosed := htorn h.streams h
  exact ⟨nofun, hclosed.tornDown, hclosed.bound⟩

theorem confines_bindSubgroupStream (s : DataPlane) {streamId : Nat} (hstream : p streamId)
    (key : SubgroupKey) : Confines p s (s.bindSubgroupStream streamId key) := by
  apply bindSubgroupStream_steps
  case refl => exact fun s => id
  case trans => exact Confines.trans
  case rekey => exact fun s _ _ k hst => confines_rekey s hst _
  case logged => exact fun s history => Confines.of_frame rfl rfl rfl
  case grant =>
    intro s h
    refine ⟨h.streams, h.tornDown, ?_⟩
    intro key' j hj
    have hget : (s.subgroupStreamByKey.insert key streamId).get? key' = some j := hj
    rw [Dict.get?_insert] at hget
    split_ifs at hget
    · cases hget
      exact hstream
    · exact h.bound key' j hget

/-! ## The loop -/

theorem confines_ends (env : DataEnv) (now : Nat) : Ends env now p (Confines p) where
  refl := fun _ => id
  trans := Confines.trans
  known := by
    intro s s' h hs
    apply h _ hs
    rintro j (hopen | ⟨key, hbound⟩)
    · exact hs.streams j hopen
    · exact hs.bound key j hbound
  aside := Confines.of_core
  logged := fun _ _ _ => Confines.of_frame rfl rfl rfl
  tear := fun s _ hstream => confines_markStreamTornDown s now hstream
  cleanup := fun s _ clean resetCode hstream =>
    confines_cleanupStream env s now hstream clean resetCode
  close := fun s errorCode => confines_closeSession s now errorCode

/-- No stream comes to be known by what a callback does. -/
theorem confines_walks (env : DataEnv) (now : Nat) : Walks env now p (Confines p) where
  toEnds := confines_ends env now
  sweeps := fun s trackAlias =>
    (confines_ends env now).sweep s trackAlias (Confines.of_frame rfl rfl rfl)
  forget := fun _ _ => Confines.of_frame rfl rfl rfl
  discard := fun _ _ => Confines.of_frame rfl rfl rfl
  binds := fun hafter =>
    (confines_ends env now).replays hafter fun _ _ _ _ => Confines.of_frame rfl rfl rfl

theorem confines_deliverArrival (env : DataEnv) (s : DataPlane) (now : Nat) (arrival : Arrival) :
    Confines p s (s.deliverArrival env now arrival) := by
  apply (confines_walks env now).deliver
  · exact fun _ => Confines.of_frame rfl rfl rfl
  · unfold holdEarlyObject
    split
    · exact id
    · dsimp only
      split
      · exact Confines.of_frame rfl rfl rfl
      · exact Confines.of_frame rfl rfl rfl

section Turns

variable {streamId : Nat} (hstream : p streamId) (env : DataEnv) (s : DataPlane) (now : Nat)
  (st : DataStream)

include hstream

theorem confines_handleItem (consumed : Nat) (item : StreamItem) :
    Confines p s (s.handleItem env now streamId st consumed item).plane := by
  have hwalks := confines_walks (p := p) env now
  have hput := fun s st' => confines_putStream (p := p) s streamId st'
  cases item with
  | padding => exact hwalks.reject s hstream _
  | subgroupHeader hdr =>
      apply hwalks.subgroupHeader hstream
      · exact fun s key => confines_bindSubgroupStream s hstream key
      · exact hput _ _
  | fetchHeader requestId =>
      apply hwalks.fetchHeader hstream
      have hbound : Confines p s
          { s with fetchStreamByRequest := s.fetchStreamByRequest.insert requestId streamId } :=
        Confines.of_frame rfl rfl rfl
      exact fun hdr _ => hbound.trans (hput _ _)
  | object obj hdr =>
      obtain ⟨bound, hbound, hobject⟩ := handleObject_cases env s now streamId st obj hdr consumed
      have hconfined : Confines p s bound := by
        rcases hbound with rfl | ⟨key, rfl⟩
        · exact hput s _
        · exact (hput s _).trans (confines_bindSubgroupStream _ hstream key)
      show Confines p s (s.handleObject env now streamId st obj hdr consumed).plane
      rw [hobject]
      apply hconfined.trans
      apply hwalks.checkObject (k := Confines p) (q := Confines p) hstream Confines.trans
        Confines.trans id
      · exact fun s _ _ _ _ => hput s _
      · exact fun s arrival _ => confines_deliverArrival env s now arrival
      · exact current_streamState bound streamId _
  | fetchObject obj hdr =>
      apply hwalks.fetchObject
      exact hput s _

theorem confines_drainTurn : Confines p s (s.drainTurn env now streamId st).plane := by
  have hfails : ∀ (s : DataPlane) (parser : Option StreamParser) (e : MoqtError),
      Confines p s (s.parseFailed env now streamId st parser e) := fun s _ _ =>
    (confines_walks env now).parseFailed hstream (fun _ => confines_putStream s _ _) _ _
  unfold drainTurn
  by_cases hopen : streamId ∈ s.streams.keys
  · simp only [hopen, decide_true, if_true]
    split
    · exact hfails s st.parser _
    · exact confines_handleItem hstream env s now _ _ _
  · simp only [hopen, decide_false, Bool.false_eq_true, if_false]
    have hstrayed : Confines p s { s with strays := s.strays ++ [streamId] } :=
      Confines.of_frame rfl rfl rfl
    split
    · exact hstrayed.trans (hfails _ none _)
    · exact hstrayed.trans (confines_handleItem hstream env _ now _ _ _)

/-! ## Events -/

omit st in
/-- The bytes of a stream make the session know that stream, and no other one. -/
theorem confines_onStreamData (data : Bytes) (endStream : Bool) :
    Confines p s (s.onStreamData env now streamId data endStream) := by
  rcases onStreamData_cases env s now streamId data endStream with
    hsame | ⟨chain, need, st, opened, drained, hst, hopen, hcurrent, hdrain, hrest⟩
  · rw [hsame]
    exact id
  have hopened : Confines p s opened := by
    intro h
    rw [hopen]
    refine ⟨?_, h.tornDown, h.bound⟩
    intro j hj
    have hkeys : j ∈ (s.streams.insert streamId st).keys := hj
    rw [Dict.keys_insert] at hkeys
    split_ifs at hkeys
    · exact h.streams j hkeys
    · rcases List.mem_append.mp hkeys with hkeys | hkeys
      · exact h.streams j hkeys
      · rw [List.mem_singleton.mp hkeys]
        exact hstream
  have hdrained : Confines p opened drained := by
    rcases hdrain with rfl | rfl
    · exact id
    · apply (confines_walks env now).drain _ _ hcurrent
      exact fun s st _ => confines_drainTurn hstream env s now st
  have hcounted : Confines p s (drained.countHeld env now streamId) := by
    apply (hopened.trans hdrained).trans
    apply (confines_ends env now).count
    exact fun st _ hst => Confines.of_frame (keys_insert_old hst _) rfl rfl
  rcases hrest with hrest | hrest
  · rw [hrest]
    exact hcounted
  · rw [hrest]
    exact hcounted.trans ((confines_ends env now).finish _ hstream)

end Turns

/-- What is about no single stream concerns the known ones alone. -/
theorem confines_step (env : DataEnv) (s : DataPlane) (now : Nat) {event : DataPlaneEvent}
    (h : event.ofStream = false) : Confines p s (s.step env (now, event)) := by
  have hnone : event.stream? = none := by
    cases event <;> first | rfl | cases h
  apply (confines_walks env now).step
  · intro j hj
    rw [hnone] at hj
    cases hj
  · rintro j data endStream rfl
    cases hnone
  · intro trackAlias groupId obj consumed endOfGroup
    exact (confines_walks env now).datagram (fun _ => confines_deliverArrival env s now _)
      endOfGroup
  · intro requestId
    apply (confines_ends env now).fetchError
    · exact fun _ => Confines.of_frame rfl rfl rfl
    · exact fun s _ _ hst => confines_rekey s hst _

end AioMoqt.Session.DataPlane
