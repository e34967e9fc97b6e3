import AioMoqt.Session.Proofs.Requests

/-!
# Calls that raise

Which request calls leave the tables as they were when they raise.  A call that its own
checks refuse does; one that got past them has filled its tables, and leaves them so if
anything behind the checks refuses it.
-/

namespace AioMoqt.Session

open AioMoqt.Lib AioMoqt.Lib.Raising AioMoqt.Messages

/-! ## Ids not handed out -/

/-- An id the session may still hand out. -/
def Unused (s : RequestSession) (n : Nat) : Prop :=
  s.app.nextRequestId ≤ n ∧ n % 2 = s.app.nextRequestId % 2

/-- No table has anything under an id or an alias that was not handed out. -/
structure FreshIds (s : RequestSession) : Prop where
  subscriptions : ∀ n, Unused s n → s.app.subscriptions.get? n = none
  pendingRequests : ∀ n, Unused s n → s.app.pendingRequests.get? n = none
  fillRequests : ∀ n, Unused s n → s.app.fillRequests.get? n = none
  txUpdates : ∀ n, Unused s n → s.txUpdates.get? n = none
  bidiStreams : ∀ n, Unused s n → s.bidiStreams.get? n = none
  unboundUpdates : ∀ n, Unused s n → s.app.unboundUpdates.get? n = none
  publishedAliases : ∀ a, s.app.nextTrackAlias ≤ a → s.app.publishedAliases.get? a = none

/-- What the session does between the calls: it may hand out ids and aliases of its own, and
enters nothing under those that it does not hand out. -/
structure Between (s s' : RequestSession) : Prop where
  nextRequestId : s.app.nextRequestId ≤ s'.app.nextRequestId
  parity : s'.app.nextRequestId % 2 = s.app.nextRequestId % 2
  nextTrackAlias : s.app.nextTrackAlias ≤ s'.app.nextTrackAlias
  subscriptions : ∀ n, Unused s' n → s'.app.subscriptions.get? n = s.app.subscriptions.get? n
  pendingRequests : ∀ n, Unused s' n → s'.app.pendingRequests.get? n = s.app.pendingRequests.get? n
  fillRequests : ∀ n, Unused s' n → s'.app.fillRequests.get? n = s.app.fillRequests.get? n
  txUpdates : ∀ n, Unused s' n → s'.txUpdates.get? n = s.txUpdates.get? n
  bidiStreams : ∀ n, Unused s' n → s'.bidiStreams.get? n = s.bidiStreams.get? n
  unboundUpdates : ∀ n, Unused s' n → s'.app.unboundUpdates.get? n = s.app.unboundUpdates.get? n
  publishedAliases : ∀ a, s'.app.nextTrackAlias ≤ a →
    s'.app.publishedAliases.get? a = s.app.publishedAliases.get? a

/-- The sessions that request calls and the rest of the session lead to. -/
inductive Reachable (env : RequestEnv) : RequestSession → Prop where
  | start (isClient : Bool) : Reachable env (newSession isClient)
  | call {s : RequestSession} (c : Call) (h : Reachable env s) :
      Reachable env (outcome (c.perform env) s).2
  | between {s s' : RequestSession} (h : Reachable env s) (hstep : Between s s') :
      Reachable env s'

theorem Between.unused {s s' : RequestSession} (h : Between s s') {n : Nat} (hn : Unused s' n) :
    Unused s n := ⟨h.nextRequestId.trans hn.1, hn.2.trans h.parity⟩

/-- The tables under ids that are not handed out stay empty. -/
theorem Between.fresh {s s' : RequestSession} (h : Between s s') (hs : FreshIds s) :
    FreshIds s' where
  subscriptions n hn := (h.subscriptions n hn).trans (hs.subscriptions n (h.unused hn))
  pendingRequests n hn := (h.pendingRequests n hn).trans (hs.pendingRequests n (h.unused hn))
  fillRequests n hn := (h.fillRequests n hn).trans (hs.fillRequests n (h.unused hn))
  txUpdates n hn := (h.txUpdates n hn).trans (hs.txUpdates n (h.unused hn))
  bidiStreams n hn := (h.bidiStreams n hn).trans (hs.bidiStreams n (h.unused hn))
  unboundUpdates n hn := (h.unboundUpdates n hn).trans (hs.unboundUpdates n (h.unused hn))
  publishedAliases a ha :=
    (h.publishedAliases a ha).trans (hs.publishedAliases a (h.nextTrackAlias.trans ha))

theorem fresh_newSession (isClient : Bool) : FreshIds (newSession isClient) where
  subscriptions _ _ := rfl
  pendingRequests _ _ := rfl
  fillRequests _ _ := rfl
  txUpdates _ _ := rfl
  bidiStreams _ _ := rfl
  unboundUpdates _ _ := rfl
  publishedAliases _ _ := rfl

/-- A table with one more entry, under an id that was handed out. -/
theorem get?_insert_of_used {α : Type} {d : Dict Nat α} {s : RequestSession} {used n : Nat} {v : α}
    (hused : ¬ Unused s used) (hn : Unused s n) (hd : d.get? n = none) :
    (d.insert used v).get? n = none := by
  rw [Dict.get?_insert, if_neg]
  · exact hd
  · intro heq
    subst heq
    exact hused hn

/-- What freshness is about. -/
def idTables (s : RequestSession) :=
  (s.app.nextRequestId, s.app.nextTrackAlias, s.app.subscriptions, s.app.pendingRequests,
    s.app.fillRequests, s.txUpdates, s.bidiStreams, s.app.unboundUpdates, s.app.publishedAliases)

/-- What decides whether a message goes out. -/
def sendState (s : RequestSession) := (s.app.quic, s.app.controlWriteStreamId,
  s.app.pendingControlMsgs)

def tablesAndSends (s : RequestSession) := (idTables s, sendState s)

/-- The ids are fresh, and `n` is not one of them. -/
def HandedOut (n : Nat) (s : RequestSession) : Prop := FreshIds s ∧ ¬ Unused s n

theorem fresh_congr {s s' : RequestSession} (h : idTables s = idTables s') (hs : FreshIds s) :
    FreshIds s' := by
  simp only [idTables, Prod.mk.injEq] at h
  obtain ⟨hnext, halias, hsubs, hpending, hfills, htx, hbidi, hunbound, haliases⟩ := h
  have hunused : ∀ n, Unused s' n → Unused s n := by
    intro n hn
    unfold Unused at hn ⊢
    rwa [hnext]
  exact {
    subscriptions := fun n hn => by rw [← hsubs]; exact hs.subscriptions n (hunused n hn)
    pendingRequests := fun n hn => by rw [← hpending]; exact hs.pendingRequests n (hunused n hn)
    fillRequests := fun n hn => by rw [← hfills]; exact hs.fillRequests n (hunused n hn)
    txUpdates := fun n hn => by rw [← htx]; exact hs.txUpdates n (hunused n hn)
    bidiStreams := fun n hn => by rw [← hbidi]; exact hs.bidiStreams n (hunused n hn)
    unboundUpdates := fun n hn => by rw [← hunbound]; exact hs.unboundUpdates n (hunused n hn)
    publishedAliases := fun a ha => by
      rw [← haliases]
      exact hs.publishedAliases a (by omega) }

theorem handedOut_congr {n : Nat} {s s' : RequestSession} (h : idTables s = idTables s')
    (hs : HandedOut n s) : HandedOut n s' := by
  refine ⟨fresh_congr h hs.1, ?_⟩
  intro hn
  apply hs.2
  have hnext : s.app.nextRequestId = s'.app.nextRequestId := congrArg Prod.fst h
  unfold Unused at hn ⊢
  rwa [hnext]

section

variable (env : RequestEnv)

theorem handedOut_of_still {α : Type} {n : Nat} {x : Calls α} (h : Still idTables x) :
    Maintains (HandedOut n) x := h.maintains fun _ _ => handedOut_congr

theorem handedOut_ofMoqt {α : Type} {n : Nat} (x : Except MoqtError α) :
    Maintains (HandedOut n) (Calls.ofMoqt x) := handedOut_of_still (still_ofMoqt x)

/-- An entry under an id that was handed out. -/
theorem handedOut_enter {n : Nat} {f : RequestSession → RequestSession}
    (h : ∀ s, HandedOut n s → FreshIds (f s))
    (hnext : ∀ s, (f s).app.nextRequestId = s.app.nextRequestId) :
    Maintains (HandedOut n) (modify f : Calls Unit) := by
  intro s hs
  refine ⟨h s hs, ?_⟩
  intro hn
  apply hs.2
  have hkeep := hnext s
  unfold Unused at hn ⊢
  rw [outcome_modify] at hn
  dsimp only at hn
  rwa [hkeep] at hn

theorem handedOut_update {n : Nat} {f : Requests → Requests}
    (h : ∀ s : RequestSession, HandedOut n s → FreshIds { s with app := f s.app })
    (hnext : ∀ r, (f r).nextRequestId = r.nextRequestId) :
    Maintains (HandedOut n) (Calls.update f) := handedOut_enter h fun s => hnext s.app

theorem still_idTables_sendControlMessage (msg : ControlMessage) :
    Still idTables (sendControlMessage env msg) :=
  (still_sendControlMessage env msg).factor idTables fun _ => rfl

theorem still_idTables_sendStreamMessage (streamId : Nat) (msg : ControlMessage) :
    Still idTables (sendStreamMessage env streamId msg) :=
  (still_sendStreamMessage env streamId msg).factor idTables fun _ => rfl

theorem still_checkFilterRanges {τ : Type} {view : RequestSession → τ} (params : Params) :
    Still view (checkFilterRanges env params) := by
  intro s
  by_cases h : RangesAllowed env s params
  · rw [checkFilterRanges_ok env h]
  · obtain ⟨e, he⟩ := checkFilterRanges_error env h
    rw [he]

theorem handedOut_sendRequest (requestId : Nat) (msg : ControlMessage) :
    Maintains (HandedOut requestId) (sendRequest env requestId msg) := by
  unfold sendRequest
  split
  · refine Maintains.bind (handedOut_of_still fun s => rfl) fun _ => ?_
    apply Maintains.bind
    · apply handedOut_enter
      · intro s hs
        exact { hs.1 with
          txUpdates := fun n hn => get?_insert_of_used hs.2 hn (hs.1.txUpdates n hn) }
      · intro s
        rfl
    · intro _
      apply Maintains.get_bind
      intro s hs
      split
      · have hopening : Maintains (HandedOut requestId) (Calls.update fun r => { r with
            unboundUpdates := r.unboundUpdates.insert requestId []
            opening := r.opening ++ [(requestId, msg)] }) := by
          apply handedOut_update
          · intro s hs
            exact { hs.1 with
              unboundUpdates := fun n hn =>
                get?_insert_of_used hs.2 hn (hs.1.unboundUpdates n hn) }
          · intro r
            rfl
        exact hopening s hs
      · split
        · exact hs
        · refine Maintains.bind ?_ (fun _ => ?_) s hs
          · apply handedOut_enter
            · intro s hs
              exact { hs.1 with
                bidiStreams := fun n hn => get?_insert_of_used hs.2 hn (hs.1.bidiStreams n hn) }
            · intro s
              rfl
          · exact handedOut_of_still (still_idTables_sendStreamMessage env _ msg)
  · exact handedOut_of_still (still_idTables_sendControlMessage env msg)

/-- An id that was taken is handed out to what follows. -/
theorem fresh_allocate_bind {α : Type} {opener : Bool} {f : Nat → Calls α}
    (hf : ∀ n, Maintains (HandedOut n) (f n)) :
    Maintains FreshIds (allocateRequestId env opener >>= f) := by
  intro s hs
  by_cases hfree : IdFree s opener
  · rw [outcome_bind_ok (allocateRequestId_ok env hfree)]
    have htaken : HandedOut s.app.nextRequestId (idTaken s) := by
      have hunused : ∀ n, Unused (idTaken s) n → Unused s n := by
        intro n hn
        have hle : s.app.nextRequestId + 2 ≤ n := hn.1
        have hparity : n % 2 = (s.app.nextRequestId + 2) % 2 := hn.2
        exact ⟨by omega, by omega⟩
      constructor
      · exact {
          subscriptions := fun n hn => hs.subscriptions n (hunused n hn)
          pendingRequests := fun n hn => hs.pendingRequests n (hunused n hn)
          fillRequests := fun n hn => hs.fillRequests n (hunused n hn)
          txUpdates := fun n hn => hs.txUpdates n (hunused n hn)
          bidiStreams := fun n hn => hs.bidiStreams n (hunused n hn)
          unboundUpdates := fun n hn => hs.unboundUpdates n (hunused n hn)
          publishedAliases := hs.publishedAliases }
      · intro hn
        have hle : s.app.nextRequestId + 2 ≤ s.app.nextRequestId := hn.1
        omega
    exact (hf _ _ htaken).1
  · obtain ⟨e, next, blocked, hnext, hunsent⟩ := allocateRequestId_error env hfree
    rw [outcome_bind_error hnext]
    have hids : idTables s = idTables next := (congrArg idTables hunsent).symm
    exact fresh_congr hids hs

theorem handedOut_registerFill (requestId : Nat) (params : Params)
    (subscriptionFilter : Option (Slot ParamValue)) (groupOrder : Option Nat)
    (forward : Option (Slot ParamValue)) :
    Maintains (HandedOut requestId)
      (registerFill env requestId params subscriptionFilter groupOrder forward) := by
  unfold registerFill
  refine Maintains.bind (handedOut_ofMoqt _) fun fill => ?_
  cases fill with
  | none => exact handedOut_of_still fun s => rfl
  | some fill =>
      apply handedOut_update
      · intro s hs
        exact { hs.1 with
          fillRequests := fun n hn => get?_insert_of_used hs.2 hn (hs.1.fillRequests n hn) }
      · intro r
        rfl

theorem still_registerPublishDoneHandler (requestId : Nat) (callback : RequestCallback)
    (s : RequestSession) :
    tablesAndSends { s with app := s.app.registerPublishDoneHandler requestId callback } =
      tablesAndSends s := by
  unfold Requests.registerPublishDoneHandler
  split
  · rfl
  · rfl

theorem still_enterHandlers (a : SubscribeArgs) (requestId : Nat) :
    Still tablesAndSends (Calls.update (a.enterHandlers requestId)) := by
  intro s
  unfold SubscribeArgs.enterHandlers
  cases a.onDone with
  | none => rfl
  | some callback =>
      exact still_registerPublishDoneHandler requestId callback { s with app := { s.app with
        pendingObjectHandlers := putHandler s.app.pendingObjectHandlers requestId a.onObject
        pendingReplyHooks := putHandler s.app.pendingReplyHooks requestId a.onReply } }

theorem handedOut_enterSubscribe (a : SubscribeArgs) (requestId : Nat) :
    Maintains (HandedOut requestId) (enterSubscribe env a requestId) := by
  unfold enterSubscribe
  refine Maintains.bind ?_ fun _ => ?_
  · apply handedOut_update
    · intro s hs
      exact { hs.1 with
        subscriptions := fun n hn => get?_insert_of_used hs.2 hn (hs.1.subscriptions n hn) }
    · intro r
      rfl
  · refine Maintains.bind (handedOut_ofMoqt _) fun sentFilter => ?_
    refine Maintains.bind (handedOut_registerFill env requestId _ _ _ _) fun _ => ?_
    refine Maintains.bind (handedOut_of_still ?_) fun _ => ?_
    · exact (still_enterHandlers a requestId).factor Prod.fst fun s => rfl
    · exact Maintains.bind (handedOut_sendRequest env requestId _) fun _ => Maintains.pure _

theorem handedOut_enterFetch (requestId : Nat) (msg : ControlMessage)
    (onObject : Option RequestCallback) :
    Maintains (HandedOut requestId) (enterFetch env requestId msg onObject) := by
  unfold enterFetch
  refine Maintains.bind ?_ fun _ => ?_
  · apply handedOut_update
    · intro s hs
      exact { hs.1 with
        subscriptions := fun n hn => get?_insert_of_used hs.2 hn (hs.1.subscriptions n hn) }
    · intro r
      rfl
  · exact Maintains.bind (handedOut_sendRequest env requestId _) fun _ => Maintains.pure _

theorem handedOut_sendAwaited (requestId : Nat) (msg : ControlMessage) (waitResponse : Bool) :
    Maintains (HandedOut requestId) (sendAwaited env requestId msg waitResponse) := by
  unfold sendAwaited
  refine Maintains.bind ?_ fun _ => ?_
  · unfold Requests.awaitReply
    cases waitResponse with
    | false => exact handedOut_of_still fun s => rfl
    | true =>
        apply handedOut_update
        · intro s hs
          exact { hs.1 with
            pendingRequests := fun n hn =>
              get?_insert_of_used hs.2 hn (hs.1.pendingRequests n hn) }
        · intro r
          rfl
  · exact Maintains.bind (handedOut_sendRequest env requestId _) fun _ => Maintains.pure _

theorem fresh_of_still {α : Type} {x : Calls α} (h : Still idTables x) : Maintains FreshIds x :=
  h.maintains fun _ _ => fresh_congr

theorem fresh_subscribe (a : SubscribeArgs) : Maintains FreshIds (Calls.subscribe env a) := by
  unfold Calls.subscribe
  split
  · exact Maintains.throw _
  · refine Maintains.bind (fresh_of_still (still_checkFilterRanges env _)) fun _ => ?_
    exact fresh_allocate_bind env (handedOut_enterSubscribe env a)

theorem fresh_fetch (a : FetchArgs) : Maintains FreshIds (Calls.fetch env a) := by
  unfold Calls.fetch
  split
  · exact Maintains.throw _
  · refine Maintains.bind (fresh_of_still (still_checkFilterRanges env _)) fun _ => ?_
    exact fresh_allocate_bind env fun n => handedOut_enterFetch env n _ _

/-- An alias that is handed out. -/
theorem handedOut_allocateTrackAlias (n requestId : Nat) :
    Maintains (HandedOut n) (allocateTrackAlias requestId) := by
  unfold allocateTrackAlias
  apply Maintains.get_bind
  intro s hs
  show HandedOut n { s with app := { s.app with
    nextTrackAlias := s.app.nextTrackAlias + 1
    publishedAliases := s.app.publishedAliases.insert s.app.nextTrackAlias requestId } }
  refine ⟨?_, hs.2⟩
  exact { hs.1 with
    publishedAliases := by
      intro a ha
      have hle : s.app.nextTrackAlias + 1 ≤ a := ha
      show (s.app.publishedAliases.insert s.app.nextTrackAlias requestId).get? a = none
      rw [Dict.get?_insert, if_neg (by omega)]
      exact hs.1.publishedAliases a (by omega) }

theorem fresh_publish (a : PublishArgs) : Maintains FreshIds (Calls.publish env a) := by
  unfold Calls.publish
  refine Maintains.bind (fresh_of_still (still_ofMoqt _)) fun _ => ?_
  refine Maintains.bind (fresh_of_still fun s => rfl) fun s => ?_
  refine Maintains.bind (fresh_of_still fun s => rfl) fun _ => ?_
  refine Maintains.bind (fresh_of_still (still_ofMoqt _)) fun carried => ?_
  apply fresh_allocate_bind
  intro n
  refine Maintains.bind (handedOut_allocateTrackAlias n n) fun trackAlias => ?_
  exact handedOut_sendAwaited env n _ _

theorem fresh_publishNamespace (a : AnnounceArgs) :
    Maintains FreshIds (Calls.publishNamespace env a) := by
  unfold Calls.publishNamespace
  refine Maintains.bind (fresh_of_still (still_ofMoqt _)) fun _ => ?_
  apply fresh_allocate_bind
  intro n
  refine Maintains.bind (handedOut_sendAwaited env n _ _) fun msg => ?_
  exact Maintains.bind (handedOut_of_still fun s => rfl) fun _ => Maintains.pure _

/-- An update waits under the id of a request, which was handed out before. -/
theorem handedOut_awaitUpdate (updateId : Nat) {s : RequestSession} {n existing : Nat}
    (hs : HandedOut n s) (hexisting : ¬ Unused s existing) :
    HandedOut n (awaitUpdate s existing updateId) := by
  refine ⟨?_, hs.2⟩
  exact { hs.1 with
    txUpdates := fun m hm => get?_insert_of_used hexisting hm (hs.1.txUpdates m hm) }

theorem handedOut_sendUpdate (n existing : Nat) (msg : ControlMessage) :
    Maintains (HandedOut n) (sendUpdate env existing n msg) := by
  unfold sendUpdate
  split
  · apply Maintains.get_bind
    intro s hs
    split
    · rename_i unbound hbidi hunbound
      have hexisting : ¬ Unused s existing := by
        intro hn
        have hnone := hs.1.unboundUpdates existing hn
        rw [hnone] at hunbound
        cases hunbound
      rw [outcome_modify_bind]
      refine ⟨?_, hs.2⟩
      have hwaits := (handedOut_awaitUpdate n hs hexisting).1
      exact { hwaits with
        unboundUpdates := fun m hm =>
          get?_insert_of_used hexisting hm (hs.1.unboundUpdates m hm) }
    · exact hs
    · rename_i unbound streamId hbidi
      have hexisting : ¬ Unused s existing := by
        intro hn
        have hnone := hs.1.bidiStreams existing hn
        rw [hnone] at hbidi
        cases hbidi
      rw [outcome_modify_bind]
      apply handedOut_of_still (still_idTables_sendStreamMessage env streamId msg)
      exact handedOut_awaitUpdate n hs hexisting
  · exact handedOut_of_still (still_idTables_sendControlMessage env msg)

theorem handedOut_registerUpdateFill (existing requestId : Nat) (params : Params) :
    Maintains (HandedOut requestId) (registerUpdateFill env existing requestId params) := by
  unfold registerUpdateFill
  apply Maintains.get_bind
  intro s hs
  cases sentSubscribe ((s.app.subscriptions.get? existing).getD []) with
  | none => exact hs
  | some sub =>
      refine Maintains.bind (handedOut_ofMoqt _) (fun sentFilter => ?_) s hs
      exact handedOut_registerFill env requestId _ _ _ _

theorem still_checkUpdateLimits {τ : Type} {view : RequestSession → τ} (existing : Nat)
    (params : Params) : Still view (checkUpdateLimits env existing params) := by
  unfold checkUpdateLimits
  split
  · refine Still.bind (still_checkFilterRanges env params) fun _ => ?_
    refine Still.bind (fun s => rfl) fun s => ?_
    dsimp only
    split
    · exact Still.throw _
    · exact Still.pure _
  · exact Still.pure _

theorem fresh_subscribeUpdate (a : UpdateArgs) : Maintains FreshIds (subscribeUpdate env a) := by
  unfold subscribeUpdate
  refine Maintains.bind (fresh_of_still fun s => rfl) fun s => ?_
  dsimp only
  cases a.start.or ((sentSubscribe ((s.app.subscriptions.get? a.existingRequestId).getD [])).map
      fun sub => filterStart sub
        (receivedOk ((s.app.subscriptions.get? a.existingRequestId).getD []))) with
  | none => exact Maintains.throw _
  | some start =>
    refine Maintains.bind (fresh_of_still (still_ofMoqt _)) fun endGroup => ?_
    apply fresh_allocate_bind
    intro n
    refine Maintains.bind ?_ fun _ => Maintains.pure _
    exact handedOut_of_still (still_idTables_sendControlMessage env _)

theorem fresh_requestUpdate (a : UpdateArgs) : Maintains FreshIds (Calls.requestUpdate env a) := by
  unfold Calls.requestUpdate
  split
  · exact fresh_subscribeUpdate env a
  · refine Maintains.bind (fresh_of_still (still_checkUpdateLimits env _ _)) fun _ => ?_
    apply fresh_allocate_bind
    intro n
    refine Maintains.bind (handedOut_registerUpdateFill env _ n _) fun _ => ?_
    exact Maintains.bind (handedOut_sendUpdate env n _ _) fun _ => Maintains.pure _

theorem fresh_joiningFetch (a : JoiningArgs) : Maintains FreshIds (Calls.joiningFetch env a) := by
  unfold Calls.joiningFetch
  dsimp only
  split
  · exact Maintains.throw _
  · split
    · refine Maintains.bind (fresh_of_still (still_ofMoqt _)) fun filter => ?_
      exact fresh_requestUpdate env _
    · exact fresh_allocate_bind env fun n => handedOut_enterFetch env n _ _

theorem fresh_perform (c : Call) : Maintains FreshIds (c.perform env) := by
  cases c with
  | subscribe a => exact fresh_subscribe env a
  | fetch a => exact fresh_fetch env a
  | joiningFetch a => exact fresh_joiningFetch env a
  | publish a => exact fresh_publish env a
  | publishNamespace a => exact fresh_publishNamespace env a
  | requestUpdate a => exact fresh_requestUpdate env a

/-- In every session reached the ids not handed out are fresh. -/
theorem Reachable.fresh {s : RequestSession} (h : Reachable env s) : FreshIds s := by
  induction h with
  | start isClient => exact fresh_newSession isClient
  | call c _ ih => exact fresh_perform env c _ ih
  | between _ hstep ih => exact hstep.fresh ih

/-! ## Calls that leave nothing behind -/

/-- A SUBSCRIBE that its checks refuse, or nothing behind them. -/
def SubscribeArgs.Clean (a : SubscribeArgs) (s : RequestSession) : Prop :=
  (a.locationFilter.isSome → env.usesLocationFilter) → RangesAllowed env s a.parameters →
  IdFree s true →
    ∃ filter fill, (a.message s.app.nextRequestId).sentLocationFilter = .ok filter ∧
      requestedFill env a.parameters (filter.map filterSlot) a.groupOrder (a.forward.map intSlot) =
        .ok fill ∧
      Sends env s (.subscribe (a.message s.app.nextRequestId))

def FetchArgs.Clean (a : FetchArgs) (s : RequestSession) : Prop :=
  (a.locationFilter.isSome → env.prof.fetchLocationFilter) → RangesAllowed env s a.parameters →
  IdFree s true → Sends env s (.fetch (a.message s.app.nextRequestId))

/-- The session with the fill of a request. -/
def withFill (s : RequestSession) (requestId : Nat) : Option Fill → RequestSession
  | none => s
  | some fill => { s with app := { s.app with
      fillRequests := s.app.fillRequests.insert requestId fill
      fetchDoneFutures := s.app.fetchDoneFutures.insert requestId none } }

def filled (s : RequestSession) (requestId : Nat) :
    Except MoqtError (Option Fill) → Except CallError Unit × RequestSession
  | .error e => (.error (.moqt e), s)
  | .ok fill => (.ok (), withFill s requestId fill)

/-- What a PUBLISH carries of a SUBSCRIBE_TRACKS. -/
def PublishArgs.carried (a : PublishArgs) (s : RequestSession) : Except MoqtError (Nat × Params) :=
  carriedParams a (subscribeTracksCarry s (makeNamespaceTuple a.trackNamespace)
    s.app.subscribeTracksParams.entries).2

def PublishArgs.Clean (a : PublishArgs) (s : RequestSession) : Prop :=
  checkSendableNamespace env (makeNamespaceTuple a.trackNamespace) = .ok () →
  ∀ forward params, a.carried s = .ok (forward, params) → IdFree s true →
    Sends env s
      (.publish (a.message s.app.nextRequestId s.app.nextTrackAlias forward params))

/-- Up to draft 16 nothing is entered for a reply that is not awaited. -/
def AnnounceArgs.Clean (a : AnnounceArgs) (s : RequestSession) : Prop :=
  checkSendableNamespace env (makeNamespaceTuple a.trackNamespace) = .ok () → IdFree s true →
    Sends env s (.publishNamespace (a.message s.app.nextRequestId)) ∨
      (a.waitResponse = false ∧ ¬ env.prof.controlUniPair)

/-- The fill a REQUEST_UPDATE asks for. -/
def updateFill (s : RequestSession) (existing : Nat) (params : Params) :
    Except MoqtError (Option Fill) :=
  match sentSubscribe ((s.app.subscriptions.get? existing).getD []) with
  | none => .ok none
  | some sub => do
      let sentFilter ← sub.sentLocationFilter
      requestedFill env params
        ((params.get? ParamType.locationFilter).or (sentFilter.map filterSlot)) sub.groupOrder
        (params.get? ParamType.forward)

/-- From draft 20 on: ranges and outstanding updates are within the peer's limits. -/
def UpdateAllowed (s : RequestSession) (existing : Nat) (params : Params) : Prop :=
  20 ≤ env.prof.paramTable → RangesAllowed env s params ∧
    (s.app.peerMaxRequestUpdates = 0 ∨ outstandingUpdates s existing < s.app.peerMaxRequestUpdates)

/-- Behind the checks a REQUEST_UPDATE on a bound stream has to serialize, and one without a
stream may ask for no fill.  Up to draft 16 nothing is entered for it. -/
def UpdateArgs.Clean (a : UpdateArgs) (s : RequestSession) : Prop :=
  env.prof.controlUniPair → UpdateAllowed env s a.existingRequestId a.sentParams →
  IdFree s false → ∀ fill, updateFill env s a.existingRequestId a.sentParams = .ok fill →
    match s.bidiStreams.get? a.existingRequestId, s.app.unboundUpdates.get? a.existingRequestId with
    | some _, _ => Encodes env (a.message s.app.nextRequestId)
    | none, some _ => True
    | none, none => fill = none

/-- The REQUEST_UPDATE that stands for a joining FETCH. -/
def JoiningArgs.update (a : JoiningArgs) (filter : LocationFilter) : UpdateArgs where
  existingRequestId := a.subscriptionRequestId
  parameters := a.parameters.insert ParamType.fillParameters (.one (.fill (a.fill filter)))

def JoiningArgs.Clean (a : JoiningArgs) (s : RequestSession) : Prop :=
  isJoining a.fetchType →
    if env.prof.fetchLocationFilter then
      ∀ filter, joiningFilter a.fetchType a.joiningStart = .ok filter →
        (a.update filter).Clean env s
    else IdFree s true → Sends env s (.fetch (a.message s.app.nextRequestId))

/-- The call is refused by its own checks, or by nothing behind them. -/
def Call.Clean (s : RequestSession) : Call → Prop
  | .subscribe a => a.Clean env s
  | .fetch a => a.Clean env s
  | .joiningFetch a => a.Clean env s
  | .publish a => a.Clean env s
  | .publishNamespace a => a.Clean env s
  | .requestUpdate a => a.Clean env s

end

end AioMoqt.Session
