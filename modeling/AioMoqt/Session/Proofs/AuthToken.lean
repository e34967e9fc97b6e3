import AioMoqt.Session.AuthToken

/-!
# Which tokens reach the validator

The resolver looks at one slot of the decoded parameters.  Up to draft 18 the last
instance of a repeated token is left there; from draft 20 on a list, which it does
not look into.
-/

namespace AioMoqt.Session

open AioMoqt.Lib AioMoqt.Lib.BigEndian AioMoqt.Messages

/-! ## The slot a repeated parameter leaves -/

section Slot

variable {α : Type}

/-- What the instances of a type that is not a Range Filter leave in its slot. -/
def slotOf (prof : DraftProfile) (values : List α) : Option (Slot α) :=
  if prof.draft20 then
    match values with
    | [] => none
    | [v] => some (.one v)
    | vs => some (.many vs)
  else values.getLast?.map .one

def valuesOf (ptype : Nat) (items : List (Nat × α)) : List α :=
  (items.filter fun item => item.1 = ptype).map Prod.snd

theorem storeParam_get? (prof : DraftProfile) {ptype : Nat} (hplain : ptype ∉ rangeFilters)
    {params : Dict Nat (Slot α)} {values : List α} (h : params.get? ptype = slotOf prof values)
    (item : Nat × α) :
    (storeParam prof params item).get? ptype =
      slotOf prof (if item.1 = ptype then values ++ [item.2] else values) := by
  obtain ⟨key, v⟩ := item
  by_cases hkey : key = ptype
  · subst hkey
    simp only [if_true, storeParam]
    cases hd : prof.draft20 with
    | false => simp [slotOf, hd, Dict.get?_insert]
    | true =>
        simp only [slotOf, hd, if_true] at h ⊢
        match values with
        | [] => simp [h, hplain, Dict.get?_insert]
        | [w] => simp [h, Dict.get?_insert]
        | w :: w' :: ws => simp [h, Dict.get?_insert]
  · have hne : ptype ≠ key := fun heq => hkey heq.symm
    simp only [if_neg hkey]
    rw [← h]
    simp only [storeParam]
    split_ifs with hd hrange
    · split <;> simp [Dict.get?_insert, hne]
    · split <;> simp [Dict.get?_insert, hne]
    · simp [Dict.get?_insert, hne]

theorem foldl_storeParam_get? (prof : DraftProfile) {ptype : Nat} (hplain : ptype ∉ rangeFilters)
    (items : List (Nat × α)) (params : Dict Nat (Slot α)) (values : List α)
    (h : params.get? ptype = slotOf prof values) :
    (items.foldl (storeParam prof) params).get? ptype =
      slotOf prof (values ++ valuesOf ptype items) := by
  induction items generalizing params values with
  | nil => simpa [valuesOf] using h
  | cons item items ih =>
      rw [List.foldl_cons, ih _ _ (storeParam_get? prof hplain h item)]
      by_cases hkey : item.1 = ptype
      · simp [valuesOf, hkey]
      · simp [valuesOf, hkey]

theorem collectParams_get? (prof : DraftProfile) {ptype : Nat} (hplain : ptype ∉ rangeFilters)
    (items : List (Nat × α)) :
    (collectParams prof items).get? ptype = slotOf prof (valuesOf ptype items) := by
  have h := foldl_storeParam_get? prof hplain items .empty [] (by simp [slotOf])
  simpa [collectParams] using h

end Slot

/-! ## Requests as they are decoded -/

theorem decode_eq_ok {prof : DraftProfile} {bufEnd : Nat} {cls : MessageClass}
    {cur next : Cursor} {msg : ControlMessage} :
    ControlMessage.decode prof bufEnd cls cur = .ok (msg, next) ↔
      ControlMessage.deserialize prof bufEnd cls cur = .ok (msg, next) := by
  unfold ControlMessage.decode
  cases ControlMessage.deserialize prof bufEnd cls cur with
  | ok result => rfl
  | error e => cases e <;> simp

/-- What is known of a request read off the wire: its parameters are those of the
instances on the wire, as far as the token is concerned. -/
structure ReadRequest (prof : DraftProfile) (bufEnd : Nat) (cls : MessageClass) (cur : Cursor)
    (msg : ControlMessage) (items : List (Nat × ParamValue)) : Prop where
  wire : ∃ mid, wireParams prof bufEnd cls cur = .ok (items, mid)
  not_setup : inSetup msg = false
  has_id : msg.requestId.isSome = true
  token : tokenParam msg = TokenParam.ofSlot ((collectParams prof items).get? ParamType.authToken)

theorem withoutDelivery_get? (params : Params) :
    params.withoutDelivery.get? ParamType.authToken = params.get? ParamType.authToken := by
  simp [Params.withoutDelivery, Dict.get?_erase, ParamType.authToken, ParamType.subscriberPriority,
    ParamType.groupOrder, ParamType.forward, ParamType.subscriptionFilter]

theorem deserializeParams_eq_ok {prof : DraftProfile} {bufEnd : Nat} {scope : Option ParamScope}
    {cur next : Cursor} {params : Params} :
    deserializeParams prof bufEnd scope cur = .ok (params, next) ↔
      ∃ items, deserializeItems prof bufEnd scope cur = .ok (items, next) ∧
        collectParams prof items = params := by
  simp only [deserializeParams, Reader.bind_eq_ok, Reader.pure_eq_ok]
  constructor
  · rintro ⟨items, mid, hitems, rfl, rfl⟩
    exact ⟨items, hitems, rfl⟩
  · rintro ⟨items, hitems, rfl⟩
    exact ⟨items, next, hitems, rfl, rfl⟩

section Read

variable {prof : DraftProfile} {bufEnd : Nat} {cur next : Cursor}

theorem subscribe_read (h16 : prof.draft16) {msg : Subscribe}
    (h : Subscribe.deserialize prof bufEnd cur = .ok (msg, next)) :
    ∃ items, ReadRequest prof bufEnd .subscribe cur (.subscribe msg) items := by
  simp only [Subscribe.deserialize, h16, if_true, Reader.bind_eq_ok, Reader.pure_eq_ok,
    deserializeParams_eq_ok, Reader.ofExcept_eq_ok] at h
  obtain ⟨rid, c₁, hrid, name, c₂, hname, params, c₃, ⟨items, hitems, rfl⟩, filter, c₄,
    ⟨-, -⟩, rfl, -⟩ := h
  refine ⟨items, ⟨c₃, ?_⟩, rfl, rfl, ?_⟩
  · simp only [wireParams, pullRequestHead, Reader.bind_eq_ok, Reader.pure_eq_ok]
    exact ⟨(), c₂, ⟨rid, c₁, hrid, name, c₂, hname, trivial, rfl⟩, hitems⟩
  · simp only [tokenParam, ControlMessage.parameters, Option.bind_some, withoutDelivery_get?]

theorem trackStatus_read (h16 : prof.draft16) {msg : TrackStatus}
    (h : TrackStatus.deserialize prof bufEnd cur = .ok (msg, next)) :
    ∃ items, ReadRequest prof bufEnd .trackStatus cur (.trackStatus msg) items := by
  simp only [TrackStatus.deserialize, h16, if_true, Reader.bind_eq_ok, Reader.pure_eq_ok,
    deserializeParams_eq_ok, Reader.ofExcept_eq_ok] at h
  obtain ⟨rid, c₁, hrid, name, c₂, hname, params, c₃, ⟨items, hitems, rfl⟩, filter, c₄,
    ⟨-, -⟩, rfl, -⟩ := h
  refine ⟨items, ⟨c₃, ?_⟩, rfl, rfl, ?_⟩
  · simp only [wireParams, pullRequestHead, Reader.bind_eq_ok, Reader.pure_eq_ok]
    exact ⟨(), c₂, ⟨rid, c₁, hrid, name, c₂, hname, trivial, rfl⟩, hitems⟩
  · simp only [tokenParam, ControlMessage.parameters, Option.bind_some, withoutDelivery_get?]

theorem publish_read (h16 : prof.draft16) {msg : Publish}
    (h : Publish.deserialize prof bufEnd cur = .ok (msg, next)) :
    ∃ items, ReadRequest prof bufEnd .publish cur (.publish msg) items := by
  simp only [Publish.deserialize, h16, if_true, Reader.bind_eq_ok, Reader.pure_eq_ok,
    deserializeParams_eq_ok, Reader.ofExcept_eq_ok] at h
  obtain ⟨rid, c₁, hrid, name, c₂, hname, trackAlias, c₃, halias, params, c₄,
    ⟨items, hitems, rfl⟩, largest, c₅, ⟨-, -⟩, exts, c₆, -, order, c₇, ⟨-, -⟩, rfl, -⟩ := h
  refine ⟨items, ⟨c₄, ?_⟩, rfl, rfl, ?_⟩
  · simp only [wireParams, pullRequestHead, Reader.bind_eq_ok, Reader.pure_eq_ok]
    exact ⟨(), c₃, ⟨rid, c₁, hrid, name, c₂, hname, trackAlias, c₃, halias, trivial, rfl⟩, hitems⟩
  · simp [tokenParam, ControlMessage.parameters, Dict.get?_erase, ParamType.authToken,
      ParamType.forward, ParamType.largestObject]

theorem withoutFields_get? (params : Params) :
    (Fetch.withoutFields params).get? ParamType.authToken = params.get? ParamType.authToken := by
  simp [Fetch.withoutFields, Dict.get?_erase, ParamType.authToken, ParamType.subscriberPriority,
    ParamType.groupOrder]

theorem fetch_read (h16 : prof.draft16) {msg : Fetch}
    (h : Fetch.deserialize prof bufEnd cur = .ok (msg, next)) :
    ∃ items, ReadRequest prof bufEnd .fetch cur (.fetch msg) items := by
  cases hfilter : prof.fetchLocationFilter with
  | true =>
      simp only [Fetch.deserialize, hfilter, if_true, Fetch.pullFiltered, Reader.bind_eq_ok,
        Reader.pure_eq_ok, deserializeParams_eq_ok] at h
      obtain ⟨rid, c₁, hrid, name, c₂, hname, params, c₃, ⟨items, hitems, rfl⟩, rfl, -⟩ := h
      refine ⟨items, ⟨c₃, ?_⟩, rfl, rfl, ?_⟩
      · simp only [wireParams, pullRequestHead, hfilter, if_true, Reader.bind_eq_ok,
          Reader.pure_eq_ok]
        exact ⟨(), c₂, ⟨rid, c₁, hrid, name, c₂, hname, trivial, rfl⟩, hitems⟩
      · simp only [tokenParam, ControlMessage.parameters, Option.bind_some, withoutFields_get?]
        simp [Dict.get?_erase, ParamType.authToken, ParamType.locationFilter]
  | false =>
      simp only [Fetch.deserialize, hfilter, Bool.false_eq_true, if_false, Fetch.pullTyped,
        Fetch.pullOrder, h16, if_true, Reader.bind_eq_ok, Reader.pure_eq_ok,
        deserializeParams_eq_ok] at h
      obtain ⟨rid, c₁, hrid, order, c₂, ⟨-, rfl⟩, type, c₃, htype, target, c₄, htarget, params,
        c₅, ⟨items, hitems, rfl⟩, rfl, -⟩ := h
      refine ⟨items, ⟨c₅, ?_⟩, rfl, rfl, ?_⟩
      · simp only [wireParams, pullRequestHead, hfilter, Bool.false_eq_true, if_false,
          Reader.bind_eq_ok, Reader.pure_eq_ok]
        exact ⟨(), c₄, ⟨rid, c₁, hrid, type, c₃, htype, target, c₄, htarget, trivial, rfl⟩, hitems⟩
      · simp only [tokenParam, ControlMessage.parameters, Option.bind_some, withoutFields_get?]

theorem publishNamespace_read {msg : PublishNamespace}
    (h : PublishNamespace.deserialize prof bufEnd cur = .ok (msg, next)) :
    ∃ items, ReadRequest prof bufEnd .publishNamespace cur (.publishNamespace msg) items := by
  simp only [PublishNamespace.deserialize, Reader.bind_eq_ok, Reader.pure_eq_ok,
    deserializeParams_eq_ok] at h
  obtain ⟨rid, c₁, hrid, parts, c₂, hparts, params, c₃, ⟨items, hitems, rfl⟩, rfl, -⟩ := h
  refine ⟨items, ⟨c₃, ?_⟩, rfl, rfl, rfl⟩
  simp only [wireParams, pullRequestHead, Reader.bind_eq_ok, Reader.pure_eq_ok]
  exact ⟨(), c₂, ⟨rid, c₁, hrid, parts, c₂, hparts, trivial, rfl⟩, hitems⟩

theorem subscribeTracks_read {msg : SubscribeTracks}
    (h : SubscribeTracks.deserialize prof bufEnd cur = .ok (msg, next)) :
    ∃ items, ReadRequest prof bufEnd .subscribeTracks cur (.subscribeTracks msg) items := by
  simp only [SubscribeTracks.deserialize, Reader.bind_eq_ok, Reader.pure_eq_ok,
    deserializeParams_eq_ok] at h
  obtain ⟨rid, c₁, hrid, parts, c₂, hparts, params, c₃, ⟨items, hitems, rfl⟩, rfl, -⟩ := h
  refine ⟨items, ⟨c₃, ?_⟩, rfl, rfl, rfl⟩
  simp only [wireParams, pullRequestHead, Reader.bind_eq_ok, Reader.pure_eq_ok]
  exact ⟨(), c₂, ⟨rid, c₁, hrid, parts, c₂, hparts, trivial, rfl⟩, hitems⟩

theorem subscribeNamespace_read {msg : SubscribeNamespace}
    (h : SubscribeNamespace.deserialize prof bufEnd cur = .ok (msg, next)) :
    ∃ items, ReadRequest prof bufEnd .subscribeNamespace cur (.subscribeNamespace msg) items := by
  simp only [SubscribeNamespace.deserialize, Reader.bind_eq_ok, Reader.pure_eq_ok,
    deserializeParams_eq_ok] at h
  obtain ⟨rid, c₁, hrid, parts, c₂, hparts, options, c₃, hoptions, params, c₄,
    ⟨items, hitems, rfl⟩, rfl, -⟩ := h
  refine ⟨items, ⟨c₄, ?_⟩, rfl, rfl, rfl⟩
  simp only [wireParams, pullRequestHead, Reader.bind_eq_ok, Reader.pure_eq_ok]
  exact ⟨(), c₃, ⟨rid, c₁, hrid, parts, c₂, hparts, options, c₃, hoptions, trivial, rfl⟩, hitems⟩

theorem requestUpdate_read {msg : RequestUpdate}
    (h : RequestUpdate.deserialize prof bufEnd cur = .ok (msg, next)) :
    ∃ items, ReadRequest prof bufEnd .requestUpdate cur (.requestUpdate msg) items := by
  simp only [RequestUpdate.deserialize, Reader.bind_eq_ok, Reader.pure_eq_ok,
    deserializeParams_eq_ok] at h
  obtain ⟨rid, c₁, hrid, existing, c₂, hexisting, params, c₃, ⟨items, hitems, rfl⟩, rfl, -⟩ := h
  refine ⟨items, ⟨c₃, ?_⟩, rfl, rfl, rfl⟩
  simp only [wireParams, pullRequestHead, Reader.bind_eq_ok, Reader.pure_eq_ok]
  exact ⟨(), c₂, ⟨rid, c₁, hrid, existing, c₂, hexisting, trivial, rfl⟩, hitems⟩

theorem decode_read (h16 : prof.draft16) {cls : MessageClass} (hcls : cls ∈ requestClasses)
    {msg : ControlMessage} (h : ControlMessage.decode prof bufEnd cls cur = .ok (msg, next)) :
    ∃ items, ReadRequest prof bufEnd cls cur msg items := by
  rw [decode_eq_ok] at h
  simp only [requestClasses, List.mem_cons, List.not_mem_nil, or_false] at hcls
  rcases hcls with rfl | rfl | rfl | rfl | rfl | rfl | rfl | rfl <;>
    obtain ⟨inner, hinner, rfl⟩ := Reader.map_eq_ok.mp h
  · exact subscribe_read h16 hinner
  · exact publish_read h16 hinner
  · exact fetch_read h16 hinner
  · exact trackStatus_read h16 hinner
  · exact publishNamespace_read hinner
  · exact subscribeNamespace_read hinner
  · exact subscribeTracks_read hinner
  · exact requestUpdate_read hinner

end Read

/-! ## Resolution -/

@[simp] theorem inSetup_setToken (token : Option AuthToken) (msg : ControlMessage) :
    inSetup (setToken token msg) = inSetup msg := by
  cases msg <;> rfl

@[simp] theorem requestId_setToken (token : Option AuthToken) (msg : ControlMessage) :
    (setToken token msg).requestId = msg.requestId := by
  cases msg <;> rfl

/-- A message that has a token parameter has it replaced. -/
theorem tokenParam_setToken {msg : ControlMessage} (hsetup : inSetup msg = false)
    (hparam : tokenParam msg ≠ .absent) (token : Option AuthToken) :
    tokenParam (setToken token msg) = (token.map TokenParam.bytes).getD .absent := by
  cases msg <;> cases token <;>
    simp_all [inSetup, tokenParam, setToken, mapParams, ControlMessage.parameters,
      TokenParam.ofSlot, TokenParam.ofPlain, Dict.get?_insert, Dict.get?_erase]

@[simp] theorem inSetup_bindRequest (rid : Option Nat) (msg : ControlMessage) :
    inSetup (bindRequest rid msg) = inSetup msg := by
  cases msg <;> rfl

@[simp] theorem requestId_bindRequest (rid : Option Nat) (msg : ControlMessage) :
    (bindRequest rid msg).requestId = msg.requestId := by
  cases msg <;> rfl

@[simp] theorem tokenParam_bindRequest (rid : Option Nat) (msg : ControlMessage) :
    tokenParam (bindRequest rid msg) = tokenParam msg := by
  cases msg <;> rfl

/-- The token the resolver makes of a parameter. -/
def shownToken (cache : TokenCache) : TokenParam → Option AuthToken
  | .bytes t => some t
  | .ref ref =>
      if ref.aliasType = .register then some (registered ref)
      else if ref.aliasType = .delete then none
      else cache.tokens.get? ref.tokenAlias
  | .absent | .other => none

theorem shownToken_one (cache : TokenCache) (v : ParamValue) :
    shownToken cache (TokenParam.ofSlot (some (.one v))) = carriedToken cache v := by
  cases v with
  | fill params => rfl
  | plain v => cases v <;> rfl

/-- A request the session can refuse. -/
structure Refusable (s : AuthSession) (msg : ControlMessage) : Prop where
  draft16 : s.prof.draft16 = true
  not_setup : inSetup msg = false
  has_id : msg.requestId.isSome = true

theorem Refusable.after_setToken {s : AuthSession} {msg : ControlMessage} (h : Refusable s msg)
    (token : Option AuthToken) : Refusable s (setToken token msg) :=
  ⟨h.draft16, by simpa using h.not_setup, by simpa using h.has_id⟩

theorem Refusable.refusable_eq {s : AuthSession} {msg : ControlMessage} (h : Refusable s msg) :
    refusable s msg = msg.requestId := by
  simp [refusable, h.draft16, h.not_setup]

/-- Validation of a request shows the validator the token in place. -/
theorem validate_validated {s : AuthSession} (hvalidator : s.validator.isSome = true)
    {r : Resolved} (hreq : Refusable s r.msg) (hnone : r.validated = none)
    (hparam : ∀ ref, tokenParam r.msg ≠ .ref ref) :
    (validate s r).validated = shownToken s.cache (tokenParam r.msg) := by
  obtain ⟨validator, hv⟩ := Option.isSome_iff_exists.mp hvalidator
  obtain ⟨rid, hrid⟩ := Option.isSome_iff_exists.mp hreq.has_id
  simp only [validate, hreq.refusable_eq, hrid, hv]
  cases hp : tokenParam r.msg with
  | bytes t => rfl
  | absent => exact hnone
  | other => exact hnone
  | ref ref => exact absurd hp (hparam ref)

theorem validate_msg (s : AuthSession) (r : Resolved) : (validate s r).msg = r.msg := by
  unfold validate
  split <;> rfl

/-- A token that was shown and did not make the request be refused was accepted. -/
theorem validate_accepted {s : AuthSession} {r : Resolved} {t : AuthToken}
    (hbefore : r.validated = none) (h : (validate s r).validated = some t)
    (hpass : (validate s r).refusal = none) :
    ∃ validator, s.validator = some validator ∧ validator t r.msg = none := by
  unfold validate at h hpass
  split at h
  next rid validator token hrid hv htoken =>
    simp only [hrid, hv, htoken, Option.map_eq_none_iff] at hpass
    simp only [Option.some.injEq] at h
    subst h
    exact ⟨validator, hv, hpass⟩
  next => simp [hbefore] at h

section Resolve

variable {s : AuthSession} {msg : ControlMessage} {r : Resolved}

/-- A request that passes went through validation. -/
theorem resolve_eq_validate (hreq : Refusable s msg) (h : resolveAuthToken s msg = .ok r)
    (hpass : r.refusal = none) :
    ∃ r', r = validate s r' ∧ r'.validated = none ∧ Refusable s r'.msg ∧
      (∀ ref, tokenParam r'.msg ≠ .ref ref) ∧
      shownToken s.cache (tokenParam r'.msg) = shownToken s.cache (tokenParam msg) := by
  unfold resolveAuthToken at h
  cases hparam : tokenParam msg with
  | absent =>
      simp only [hparam, Except.ok.injEq] at h
      exact ⟨_, h.symm, rfl, hreq, by simp [hparam], by simp [hparam]⟩
  | other =>
      simp only [hparam, Except.ok.injEq] at h
      exact ⟨_, h.symm, rfl, hreq, by simp [hparam], by simp [hparam]⟩
  | bytes t =>
      simp only [hparam, Except.ok.injEq] at h
      exact ⟨_, h.symm, rfl, hreq, by simp [hparam], by simp [hparam]⟩
  | ref ref =>
      have hset := tokenParam_setToken hreq.not_setup (by simp [hparam])
      simp only [hparam, applyRef] at h
      by_cases hregister : ref.aliasType = .register
      · -- the registration either fails, closing the session, or leaves its token in place
        simp only [if_pos hregister, registerToken, hreq.not_setup, Bool.false_eq_true, if_false]
          at h
        split_ifs at h with hknown hfits
        · simp [bind, Except.bind] at h
        · simp only [bind, Except.bind, pure, Except.pure, if_true, Except.ok.injEq] at h
          refine ⟨_, h.symm, rfl, hreq.after_setToken (some (registered ref)), ?_, ?_⟩
          · simp [hset]
          · simp [hset, shownToken, hregister]
        · simp [bind, Except.bind] at h
      · simp only [if_neg hregister, hreq.not_setup, Bool.false_eq_true, if_false] at h
        cases hknown : s.cache.tokens.get? ref.tokenAlias with
        | none =>
            -- an unknown alias is refused, so the request would not pass
            simp only [hknown, bind, Except.bind, pure, Except.pure, Bool.false_eq_true, if_false,
              Except.ok.injEq] at h
            obtain ⟨rid, hrid⟩ := Option.isSome_iff_exists.mp hreq.has_id
            subst h
            simp [unknownAlias, hreq.refusable_eq, hrid] at hpass
        | some known =>
            simp only [hknown, bind, Except.bind, pure, Except.pure, if_true, Except.ok.injEq] at h
            by_cases hdelete : ref.aliasType = .delete
            · refine ⟨_, h.symm, ?_, ?_, ?_, ?_⟩
              · simp [applyKnown, hdelete]
              · simpa [applyKnown, hdelete] using hreq.after_setToken none
              · simp [applyKnown, hdelete, hset]
              · simp [applyKnown, hdelete, hset, shownToken]
            · refine ⟨_, h.symm, ?_, ?_, ?_, ?_⟩
              · simp [applyKnown, hdelete]
              · simpa [applyKnown, hdelete] using hreq.after_setToken (some known)
              · simp [applyKnown, hdelete, hset]
              · simp [applyKnown, hdelete, hset, shownToken, hregister, hknown]

end Resolve

/-! ## Tokens that escape -/

/-- `token` was given to the validator, which accepted it. -/
def Accepted (s : AuthSession) (r : Resolved) (token : AuthToken) : Prop :=
  r.validated = some token ∧
    ∃ validator, s.validator = some validator ∧ validator token r.msg = none

/-- The token instances of a message that leave nothing unseen.  From draft 20 on two
or more are seen only if none carries a value; before, every value must be the one
of the last instance. -/
def AllSeen (prof : DraftProfile) (cache : TokenCache) (tokens : List ParamValue) : Prop :=
  if prof.draft20 then tokens.length ≤ 1 ∨ ∀ v ∈ tokens, carriedToken cache v = none
  else ∀ v ∈ tokens, carriedToken cache v = none ∨
    carriedToken cache v = tokens.getLast?.bind (carriedToken cache)

/-- The instance in the slot is the only one that is shown. -/
theorem shown_all_iff (prof : DraftProfile) (cache : TokenCache) (tokens : List ParamValue) :
    (∀ v ∈ tokens, ∀ t, carriedToken cache v = some t →
      shownToken cache (TokenParam.ofSlot (slotOf prof tokens)) = some t) ↔
      AllSeen prof cache tokens := by
  unfold AllSeen slotOf
  cases hdraft : prof.draft20 with
  | true =>
      simp only [if_true]
      match tokens with
      | [] => simp
      | [v] => simp [shownToken_one]
      | v :: w :: rest =>
          simp only [TokenParam.ofSlot, shownToken, List.length_cons]
          constructor
          · intro h
            refine .inr fun u hu => ?_
            cases hc : carriedToken cache u with
            | none => rfl
            | some t => exact absurd (h u hu t hc) (by simp)
          · rintro (hlen | hnone) u hu t ht
            · omega
            · simp [hnone u hu] at ht
  | false =>
      simp only [Bool.false_eq_true, if_false]
      have hshown : shownToken cache (TokenParam.ofSlot (tokens.getLast?.map Slot.one)) =
          tokens.getLast?.bind (carriedToken cache) := by
        cases tokens.getLast? with
        | none => rfl
        | some v => exact shownToken_one cache v
      rw [hshown]
      refine forall₂_congr fun v _ => ?_
      cases carriedToken cache v with
      | none => simp
      | some t => simp [eq_comm]

/-- Of the requests that pass, those whose every token the validator saw and accepted
are those whose token instances leave nothing unseen. -/
theorem tokens_accepted_iff (draft : Draft) (hdraft : draft ≠ .d14) {s : AuthSession}
    (hprof : s.prof = profileFor draft) (hvalidator : s.validator.isSome = true)
    {cls : MessageClass} (hcls : cls ∈ requestClasses) {bufEnd : Nat} {cur next : Cursor}
    {msg : ControlMessage}
    (hdecode : ControlMessage.decode s.prof bufEnd cls cur = .ok (msg, next))
    (requestId : Option Nat) {r : Resolved}
    (hresolve : resolveAuthToken s (bindRequest requestId msg) = .ok r)
    (hpass : r.refusal = none) :
    ∃ items mid, wireParams s.prof bufEnd cls cur = .ok (items, mid) ∧
      ((∀ v ∈ wireTokens items, ∀ token, carriedToken s.cache v = some token →
        Accepted s r token) ↔ AllSeen s.prof s.cache (wireTokens items)) := by
  have h16 : s.prof.draft16 = true := by
    rw [hprof]
    cases draft <;> first | exact absurd rfl hdraft | rfl
  obtain ⟨items, ⟨mid, hwire⟩, hsetup, hid, htoken⟩ := decode_read h16 hcls hdecode
  have hreq : Refusable s (bindRequest requestId msg) :=
    ⟨h16, by simpa using hsetup, by simpa using hid⟩
  obtain ⟨r', rfl, hnone, hreq', hparam, hshown⟩ := resolve_eq_validate hreq hresolve hpass
  have hvalidated := validate_validated hvalidator hreq' hnone hparam
  have hslot : tokenParam msg = TokenParam.ofSlot (slotOf s.prof (wireTokens items)) := by
    rw [htoken, collectParams_get? s.prof (by decide)]
    rfl
  rw [hshown, tokenParam_bindRequest, hslot] at hvalidated
  refine ⟨items, mid, hwire, ?_⟩
  rw [← shown_all_iff]
  refine forall₂_congr fun v _ => forall₂_congr fun t _ => ?_
  constructor
  · rintro ⟨hgiven, -⟩
    rw [← hvalidated]
    exact hgiven
  · intro hgiven
    have hgiven' := hvalidated.trans hgiven
    refine ⟨hgiven', ?_⟩
    rw [validate_msg]
    exact validate_accepted hnone hgiven' hpass

/-! ### Two tokens in one SUBSCRIBE -/

/-- A session whose validator answers every token alike. -/
def tokenSession (draft : Draft) (answer : Option Nat) : AuthSession :=
  { cache := { tokens := .empty }, validator := some fun _ _ => answer
    prof := profileFor draft }

/-- A SUBSCRIBE of track `a`/`b` with the token `01` as a value. -/
def oneToken : Bytes := [0x00, 0x01, 0x01, 0x61, 0x01, 0x62, 0x01, 0x03, 0x03, 0x03, 0x00, 0x01]

theorem tokens_accepted_oneToken :
    ∃ msg next r,
      ControlMessage.decode (profileFor .d20) 12 .subscribe ⟨0, oneToken⟩ = .ok (msg, next) ∧
      resolveAuthToken (tokenSession .d20 none) (bindRequest none msg) = .ok r ∧
      r.refusal = none ∧
      ∃ items mid, wireParams (profileFor .d20) 12 .subscribe ⟨0, oneToken⟩ = .ok (items, mid) ∧
        ((∀ v ∈ wireTokens items, ∀ token,
          carriedToken (tokenSession .d20 none).cache v = some token →
          Accepted (tokenSession .d20 none) r token) ↔
          AllSeen (profileFor .d20) (tokenSession .d20 none).cache (wireTokens items)) :=
  ⟨_, _, _, rfl, rfl, rfl,
    tokens_accepted_iff .d20 (s := tokenSession .d20 none) (by decide) rfl rfl (by decide) rfl none
      rfl rfl⟩

/-- The same with the tokens `01` and `02`. -/
def twoTokens : Bytes :=
  [0x00, 0x01, 0x01, 0x61, 0x01, 0x62, 0x02, 0x03, 0x03, 0x03, 0x00, 0x01, 0x00, 0x03, 0x03,
    0x00, 0x02]

/-- A validator that refuses every token is never asked, and the request passes. -/
theorem tokens_escape_twoTokens :
    ∃ msg next r items mid v,
      ControlMessage.decode (profileFor .d20) 17 .subscribe ⟨0, twoTokens⟩ = .ok (msg, next) ∧
      resolveAuthToken (tokenSession .d20 (some 1)) msg = .ok r ∧ r.refusal = none ∧
      wireParams (profileFor .d20) 17 .subscribe ⟨0, twoTokens⟩ = .ok (items, mid) ∧
      v ∈ wireTokens items ∧
      carriedToken (tokenSession .d20 (some 1)).cache v = some ⟨[0x01], 0⟩ ∧
      ¬ Accepted (tokenSession .d20 (some 1)) r ⟨[0x01], 0⟩ := by
  refine ⟨_, _, _, _, _, .plain (.token ⟨[0x01], 0⟩), rfl, rfl, rfl, rfl, ?_, rfl, ?_⟩
  · exact List.mem_cons_self
  · rintro ⟨h, -⟩
    exact absurd h (by decide)

end AioMoqt.Session
