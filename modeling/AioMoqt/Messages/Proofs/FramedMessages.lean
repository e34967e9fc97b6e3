import AioMoqt.Messages.Proofs.Framing

/-!
# Every control message is framed

The decoders of the message classes, put together from the framed parts.
-/

namespace AioMoqt.Messages

open AioMoqt.Lib AioMoqt.Lib.BigEndian AioMoqt.Lib.Reader

section

variable {stop : Nat} (prof : DraftProfile)

/-! ## What is checked after a read -/

/-- The failures of the checks of what was read.  A property of the wrong form would be the
decoder's own fault. -/
def MoqtError.Judged (e : MoqtError) : Prop := e = .typeError ∨ ∃ reason, e = .violation reason

instance violation_judged {α : Type} (reason : String) :
    Fails MoqtError.Judged (.error (.violation reason) : Except MoqtError α) :=
  Fails.of_lost (Or.inr ⟨reason, rfl⟩)

instance typeError_judged {α : Type} :
    Fails MoqtError.Judged (.error .typeError : Except MoqtError α) := Fails.of_lost (Or.inl rfl)

/-- A check that fails closes the session. -/
instance (priority := low) judged_fatal {α : Type} {x : Except MoqtError α}
    [hx : Fails MoqtError.Judged x] : Fails MoqtError.Fatal x where
  fails e he := by
    rcases hx.fails e he with rfl | ⟨reason, rfl⟩
    · rfl
    · rfl

instance checkRange_fails (name : String) (value lo hi : Nat) :
    Fails MoqtError.Judged (checkRange name value lo hi) := by
  unfold checkRange
  infer_instance

instance checkType_fails (filterType : Nat) :
    Fails MoqtError.Violation (SubscriptionFilter.checkType filterType) := by
  unfold SubscriptionFilter.checkType
  infer_instance

instance pullVint_failsOnly (code : PrefixCode) :
    FailsOnly MoqtError.Violation (pullVint code) := FailsOnly.int underflow_violation

instance pullFilterFields_failsOnly (checked : Bool) :
    FailsOnly MoqtError.Violation (SubscriptionFilter.pullFields prof checked) := by
  unfold SubscriptionFilter.pullFields SubscriptionFilter.pullStart SubscriptionFilter.pullEnd
  infer_instance

instance resolveEnd_fails (start stop : Option Nat) :
    Fails MoqtError.Violation (SubscriptionFilter.resolveEnd prof start stop) := by
  unfold SubscriptionFilter.resolveEnd
  split
  · infer_instance
  · infer_instance

instance decodeFilter_fails (raw : Bytes) :
    Fails MoqtError.Violation (SubscriptionFilter.decode prof raw) := by
  unfold SubscriptionFilter.decode
  infer_instance

instance bytesFilter_fails (params : Params) :
    Fails MoqtError.Violation (params.bytesFilter prof) := by
  unfold Params.bytesFilter
  split <;> infer_instance

instance receivedFilter_fails (params : Params) :
    Fails MoqtError.Violation (Subscribe.receivedFilter prof params) := by
  unfold Subscribe.receivedFilter
  split <;> infer_instance

instance largest_fails (params : Params) : Fails MoqtError.Violation params.largest? := by
  unfold Params.largest? pullLargest
  split <;> infer_instance

instance checkPropertyRanges_fails (props : Dict Nat KvpValue)
    (ranges : List (Nat × String × Nat × Nat)) :
    Fails MoqtError.Judged (checkPropertyRanges props ranges) := by
  induction ranges with
  | nil => exact Fails.ok ()
  | cons range ranges ih =>
      obtain ⟨ptype, name, lo, hi⟩ := range
      unfold checkPropertyRanges
      dsimp only
      split <;> infer_instance

instance checkProperties_fails (props : Dict Nat KvpValue) :
    Fails MoqtError.Judged (checkProperties prof props) := by
  unfold checkProperties checkDeliveryTimeout
  infer_instance

instance checkImmutable_fails (raw : Bytes) :
    Fails MoqtError.Judged (checkImmutable prof raw) := by
  unfold checkImmutable
  split <;> infer_instance

instance checkTrackProperties_fails (props : Option KeyValuePairs) :
    Fails MoqtError.Judged (checkTrackProperties prof props) := by
  unfold checkTrackProperties
  split
  · infer_instance
  · apply Fails.seq inferInstance
    intro _
    split <;> infer_instance

instance extensionsOrder_fails (exts : Option KeyValuePairs) :
    Fails MoqtError.Judged (extensionsOrder exts) := by
  unfold extensionsOrder
  split <;> infer_instance

/-! ## Fields -/

instance pullReplyId_framed : Framed MoqtError.Violation stop (pullReplyId prof) := by
  unfold pullReplyId
  infer_instance

instance pullFilterFields_framed (checked : Bool) :
    Framed MoqtError.Violation stop (SubscriptionFilter.pullFields prof checked) := by
  unfold SubscriptionFilter.pullFields SubscriptionFilter.pullStart SubscriptionFilter.pullEnd
  infer_instance

instance pullDeliveryFields_framed :
    Framed MoqtError.Fatal stop (pullDeliveryFields prof) := by
  unfold pullDeliveryFields
  infer_instance

instance pullContent_framed (contentExists : Nat) :
    Framed MoqtError.Violation stop (pullContent prof contentExists) := by
  unfold pullContent
  infer_instance

instance pullTrackExtensions_framed :
    Framed MoqtError.Fatal stop (pullTrackExtensions prof stop) := by
  unfold pullTrackExtensions
  infer_instance

/-! ## Sessions -/

instance pullVersions_framed (n : Nat) :
    Framed MoqtError.Violation stop (ClientSetup.pullVersions n) := by
  induction n with
  | zero => exact Framed.pure []
  | succ n ih =>
      unfold ClientSetup.pullVersions
      infer_instance

/-- A token among the Setup Options is unwrapped only where it lies inside SETUP. -/
instance Setup.pullOptionValue_framed (key : Nat) :
    Framed MoqtError.Violation stop (Setup.pullOptionValue prof stop key) := by
  unfold Setup.pullOptionValue
  split
  · apply Framed.seq inferInstance
    intro len
    constructor
    intro pos
    apply FramedAt.tell_bind
    dsimp only
    split
    · exact Framed.fail.framedAt pos
    split
    · exact Framed.fail.framedAt pos
    next hin =>
    apply FramedAt.bytes_bind underflow_violation
    intro raw
    split
    · exact .ofExcept_inside (Nat.le_of_not_lt hin) _
    · exact .pure _ _
  · infer_instance

instance Setup.pullOptions_framed (fuel prevKey : Nat) (options : Dict Nat PlainValue) :
    Framed MoqtError.Violation stop (Setup.pullOptions prof stop fuel prevKey options) := by
  induction fuel generalizing prevKey options with
  | zero => exact Framed.pure options
  | succ fuel ih =>
      unfold Setup.pullOptions
      infer_instance

instance checkExtent_framed (bufEnd : Nat) (what : String) :
    Framed MoqtError.Violation stop (D20Setup.checkExtent bufEnd what) := by
  unfold D20Setup.checkExtent
  infer_instance

instance D20Setup.pullOptionValue_framed (bufEnd key : Nat) :
    Framed MoqtError.Violation stop (D20Setup.pullOptionValue prof bufEnd key) := by
  unfold D20Setup.pullOptionValue
  infer_instance

theorem checkExtent_inside {bufEnd : Nat} {what : String} {cur last : Cursor} {u : Unit}
    (h : D20Setup.checkExtent bufEnd what cur = .ok (u, last)) : cur = last ∧ last.pos ≤ bufEnd := by
  unfold D20Setup.checkExtent at h
  obtain ⟨pos, mid, hpos, h⟩ := bind_eq_ok.mp h
  obtain ⟨rfl, rfl⟩ : cur.pos = pos ∧ cur = mid := by simpa [Reader.tell] using hpos
  by_cases hin : bufEnd < cur.pos
  · simp [hin, Reader.fail] at h
  · simp only [if_neg hin] at h
    obtain ⟨-, rfl⟩ := pure_eq_ok.mp h
    exact ⟨rfl, Nat.le_of_not_lt hin⟩

/-- An option that was read ends inside SETUP. -/
theorem D20Setup.pullOptionValue_inside {bufEnd key : Nat} {value : PlainValue}
    {cur last : Cursor} (h : D20Setup.pullOptionValue prof bufEnd key cur = .ok (value, last)) :
    last.pos ≤ bufEnd := by
  unfold D20Setup.pullOptionValue at h
  dsimp only at h
  split at h
  · obtain ⟨len, cur₁, -, h⟩ := bind_eq_ok.mp h
    obtain ⟨-, cur₂, -, h⟩ := bind_eq_ok.mp h
    obtain ⟨pos, cur₃, hpos, h⟩ := bind_eq_ok.mp h
    obtain ⟨rfl, rfl⟩ : cur₂.pos = pos ∧ cur₂ = cur₃ := by simpa [Reader.tell] using hpos
    split at h
    · cases h
    split at h
    · cases h
    next hin =>
    obtain ⟨raw, cur₄, hraw, h⟩ := bind_eq_ok.mp h
    obtain ⟨-, rfl⟩ := pure_eq_ok.mp h
    unfold pullBytes Reader.bytes at hraw
    split at hraw
    · obtain ⟨-, rfl⟩ := Prod.mk.inj (Except.ok.inj hraw)
      exact Nat.le_of_not_lt hin
    · cases hraw
  · obtain ⟨v, cur₁, -, h⟩ := bind_eq_ok.mp h
    obtain ⟨u, cur₂, hextent, h⟩ := bind_eq_ok.mp h
    obtain ⟨-, rfl⟩ := pure_eq_ok.mp h
    exact (checkExtent_inside hextent).2

instance D20Setup.pullOptions_framed (fuel prevKey : Nat) (self : D20Setup) :
    Framed MoqtError.Violation stop (D20Setup.pullOptions prof stop fuel prevKey self) := by
  induction fuel generalizing prevKey self with
  | zero => exact Framed.pure self
  | succ fuel ih =>
      have hoption : ∀ key, Framed MoqtError.Violation stop (do
          let value ← D20Setup.pullOptionValue prof stop key
          let self ← Reader.ofExcept (D20Setup.storeOption prof self key value)
          D20Setup.pullOptions prof stop fuel key self) := by
        intro key
        constructor
        intro pos
        apply ((D20Setup.pullOptionValue_framed prof stop key).framedAt pos).bind_of
        · intro value next hnext
          exact (FramedAt.ofExcept_inside hnext _).bind fun self next => (ih key self).framedAt next
        · intro cur value last hvalue hlast
          exact absurd hlast (Nat.not_lt_of_le (D20Setup.pullOptionValue_inside prof hvalue))
      unfold D20Setup.pullOptions
      infer_instance

/-! ## Message classes -/

instance GoAway.deserialize_framed :
    Framed MoqtError.Fatal stop (GoAway.deserialize prof stop) := by
  unfold GoAway.deserialize GoAway.pullRequestId
  apply Framed.seq inferInstance
  intro len
  apply Framed.seq inferInstance
  intro pos
  split
  · infer_instance
  apply Framed.seq inferInstance
  intro raw
  split <;> infer_instance

instance SubscribeOk.pullFields_framed (cls : MessageClass) (requestId : Option Nat)
    (trackAlias : Nat) :
    Framed MoqtError.Fatal stop (SubscribeOk.pullFields prof stop cls requestId trackAlias) := by
  unfold SubscribeOk.pullFields
  infer_instance

instance Fetch.pullTarget_framed (fetchType : Nat) :
    Framed MoqtError.Violation stop (Fetch.pullTarget prof fetchType) := by
  unfold Fetch.pullTarget
  infer_instance

instance WithdrawnRequest.pull_framed :
    Framed MoqtError.Violation stop (WithdrawnRequest.pull prof) := by
  unfold WithdrawnRequest.pull
  infer_instance

/-! ## Any message -/

instance ControlMessage.deserialize_framed (cls : MessageClass) :
    Framed MoqtError.Fatal stop (ControlMessage.deserialize prof stop cls) := by
  cases cls <;> simp only [ControlMessage.deserialize,
    ClientSetup.deserialize, ServerSetup.deserialize, Setup.deserialize,
    D20Setup.deserialize, RequestIdMessage.deserialize, ErrorMessage.deserialize,
    TrackStatus.deserialize, Subscribe.deserialize, SubscribeOk.deserialize,
    TrackStatusOk.deserialize, SubscribeUpdate.deserialize, SubscribeDone.deserialize,
    Fetch.deserialize, Fetch.pullFiltered, Fetch.pullTyped, Fetch.pullOrder,
    FetchOk.deserialize, Publish.deserialize, PublishOk.deserialize, PublishOk.pullExpires,
    PublishStateNotify.deserialize, PublishNamespace.deserialize,
    SubscribeNamespace.deserialize, SubscribeNamespace.pullSubscribeOptions,
    SubscribeTracks.deserialize, PublishNamespaceDone.deserialize,
    PublishNamespaceCancel.deserialize, NamespaceMessage.deserialize,
    PublishBlocked.deserialize, RequestOk.deserialize, RequestOk.pullProperties,
    RequestError.deserialize, RequestError.pullRedirect, RequestUpdate.deserialize,
    RequestUpdate.pullExisting] <;>
    infer_instance

instance ControlMessage.decode_framed (cls : MessageClass) :
    Framed MoqtError.Fatal stop (ControlMessage.decode prof stop cls) where
  framedAt pos := by
    have hframed : FramedAt MoqtError.Fatal stop pos (ControlMessage.deserialize prof stop cls) :=
      (ControlMessage.deserialize_framed prof cls).framedAt pos
    have hlost : ∀ cur, Lost MoqtError.Fatal stop (ControlMessage.deserialize prof stop cls cur) →
        Lost MoqtError.Fatal stop (ControlMessage.decode prof stop cls cur) := by
      intro cur h
      unfold ControlMessage.decode
      dsimp only
      split
      · rfl
      · exact h
    constructor
    · intro body rest rest' hstop
      have hagree := hframed.inside body rest rest' hstop
      generalize hx : ControlMessage.deserialize prof stop cls ⟨pos, body ++ rest⟩ = x at hagree
      generalize hy : ControlMessage.deserialize prof stop cls ⟨pos, body ++ rest'⟩ = y at hagree
      cases hagree with
      | inside msg next mid hnext =>
          simp only [ControlMessage.decode, hx, hy]
          exact .inside msg next mid hnext
      | failed e =>
          simp only [ControlMessage.decode, hx, hy]
          cases e <;> exact .failed _
      | lost hxl hyl => exact .lost (hlost _ (hx ▸ hxl)) (hlost _ (hy ▸ hyl))
    · intro hpos rest
      exact hlost _ (hframed.past hpos rest)

end

end AioMoqt.Messages
