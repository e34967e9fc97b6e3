import AioMoqt.Session.Requests

/-!
# What a request call that raises leaves

A call first checks what it was given and takes a Request ID, then fills its tables,
then sends.  The checks leave the tables alone; once they are filled, every failure of
the rest of the call stays in them.
-/

namespace AioMoqt.Session

open AioMoqt.Lib AioMoqt.Lib.Raising AioMoqt.Messages

section

variable (env : RequestEnv)

/-! ## When the parts of a call raise -/

/-- A Request ID can be had. -/
def IdFree (s : RequestSession) (opener : Bool) : Prop :=
  ¬ (opener ∧ s.app.goawayReceived) ∧ ¬ s.app.peerRequestLimit.any (· ≤ s.app.nextRequestId)

/-- The filter ranges are within the peer's MAX_FILTER_RANGES. -/
def RangesAllowed (s : RequestSession) (params : Params) : Prop :=
  20 ≤ env.prof.paramTable →
    rangeFilterCount params + rangeFilterCount (fillBlock params) ≤ s.app.peerMaxFilterRanges

/-- The session and the draft's serializer take a message. -/
def Encodes (msg : ControlMessage) : Prop := ∃ bytes, encodeMessage env msg = .ok bytes

/-- `_send_request` goes through: over WebTransport always, as the stream opens later. -/
def Sends (s : RequestSession) (msg : ControlMessage) : Prop :=
  if env.prof.controlUniPair then env.isWt ∨ (s.app.quic ∧ Encodes env msg)
  else controlStreamError env s msg = none

instance (s : RequestSession) (opener : Bool) : Decidable (IdFree s opener) := by
  unfold IdFree
  infer_instance

/-- The session after a Request ID was taken. -/
def idTaken (s : RequestSession) : RequestSession :=
  { s with app := { s.app with nextRequestId := s.app.nextRequestId + 2 } }

theorem still_ofMoqt {α τ : Type} {view : RequestSession → τ} (x : Except MoqtError α) :
    Still view (Calls.ofMoqt x) := Still.ofExcept _

theorem checkFilterRanges_ok {s : RequestSession} {params : Params}
    (h : RangesAllowed env s params) :
    outcome (checkFilterRanges env params) s = (.ok (), s) := by
  unfold checkFilterRanges
  rw [outcome_get_bind, if_neg]
  · rfl
  · intro hover
    have hle := h hover.1
    omega

theorem checkFilterRanges_error {s : RequestSession} {params : Params}
    (h : ¬ RangesAllowed env s params) :
    ∃ e, outcome (checkFilterRanges env params) s = (.error e, s) := by
  unfold checkFilterRanges
  rw [outcome_get_bind, if_pos]
  · exact ⟨_, rfl⟩
  · unfold RangesAllowed at h
    push Not at h
    exact h

/-- The session but for what it sent. -/
def unsent (s : RequestSession) : RequestSession :=
  { s with
    unansweredPeerRequests := [], sent := []
    app := { s.app with pendingControlMsgs := [], writes := [] } }

theorem unsent_putControl (msg : ControlMessage) (s : RequestSession) :
    unsent (putControl msg (discardUnanswered msg s)) = unsent s := by
  unfold putControl
  split
  · rfl
  · rfl

theorem still_sendControlMessage (msg : ControlMessage) :
    Still unsent (sendControlMessage env msg) := by
  intro s
  unfold sendControlMessage
  rw [outcome_get_bind]
  cases h : controlStreamError env s msg with
  | some e => rfl
  | none =>
      rw [outcome_modify]
      exact unsent_putControl msg s

theorem unsent_streamWrite (streamId : Nat) (msg : ControlMessage) (s : RequestSession) :
    unsent { s with app := s.app.streamWrite streamId msg } = unsent s := by
  unfold Requests.streamWrite
  split
  · rfl
  · rfl

theorem still_sendStreamMessage (streamId : Nat) (msg : ControlMessage) :
    Still unsent (sendStreamMessage env streamId msg) := by
  unfold sendStreamMessage
  apply Still.bind
  · exact Still.modify fun s => rfl
  · intro _
    apply Still.bind (still_ofMoqt _)
    intro _
    exact Still.modify fun s => unsent_streamWrite streamId msg s

theorem allocateRequestId_ok {s : RequestSession} {opener : Bool} (h : IdFree s opener) :
    outcome (allocateRequestId env opener) s = (.ok s.app.nextRequestId, idTaken s) := by
  unfold allocateRequestId
  rw [outcome_get_bind, if_neg h.1, if_neg h.2]
  rfl

/-- Once REQUESTS_BLOCKED is sent. -/
def withBlocked (s : RequestSession) (blocked : Bool) : RequestSession :=
  { s with app := { s.app with requestsBlockedSent := blocked } }

/-- A refused Request ID leaves REQUESTS_BLOCKED at most. -/
theorem allocateRequestId_error {s : RequestSession} {opener : Bool} (h : ¬ IdFree s opener) :
    ∃ e next blocked, outcome (allocateRequestId env opener) s = (.error e, next) ∧
      unsent next = unsent (withBlocked s blocked) := by
  unfold allocateRequestId
  rw [outcome_get_bind]
  by_cases hgoaway : opener ∧ s.app.goawayReceived
  · rw [if_pos hgoaway]
    exact ⟨_, _, s.app.requestsBlockedSent, rfl, rfl⟩
  · rw [if_neg hgoaway]
    by_cases hlimit : s.app.peerRequestLimit.any (· ≤ s.app.nextRequestId)
    · rw [if_pos hlimit]
      dsimp only
      by_cases hsent : s.app.requestsBlockedSent
      · rw [if_pos hsent]
        exact ⟨_, _, s.app.requestsBlockedSent, rfl, rfl⟩
      · rw [if_neg hsent]
        have hblocked : outcome (Calls.update fun r => { r with requestsBlockedSent := true }) s =
            (.ok (), withBlocked s true) := rfl
        rw [outcome_bind_ok hblocked]
        have hstill := still_sendControlMessage env
          (.subscribesBlocked ⟨s.app.peerRequestLimit.getD 0⟩) (withBlocked s true)
        cases hcontrol : outcome (sendControlMessage env
            (.subscribesBlocked ⟨s.app.peerRequestLimit.getD 0⟩)) (withBlocked s true) with
        | mk result next =>
            rw [hcontrol] at hstill
            cases result with
            | error e => exact ⟨e, next, true, outcome_bind_error hcontrol _, hstill⟩
            | ok _ => exact ⟨_, next, true, outcome_bind_ok hcontrol _, hstill⟩
    · exact absurd ⟨hgoaway, hlimit⟩ h

end

end AioMoqt.Session
