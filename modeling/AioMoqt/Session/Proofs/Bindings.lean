import AioMoqt.Session.Proofs.DataSteps

/-!
# Stream bindings

Two tables of a session say which stream a subgroup or a FETCH is bound to, and each stream
keeps its key.  What the operations of the data plane do to the bindings is told on the tables
alone: a stream is opened, gets a key, changes its parser, or ends.  While the session is open
and no ended stream is parsed on, the two sides agree and every end is accounted for.
-/

namespace AioMoqt.Session

open AioMoqt.Lib AioMoqt.Lib.BigEndian AioMoqt.Lib.Ownership AioMoqt.Messages

/-! ## The tables -/

/-- The subgroup whose end an event reports. -/
def DataEvent.reported : DataEvent → Option SubgroupKey
  | .streamEnd _ trackAlias ended => some ⟨trackAlias, ended.groupId, ended.subgroupId⟩
  | _ => none

/-- The part of a data plane that its bindings are about. -/
structure BindingTables where
  streams : Dict Nat DataStream
  subgroupStreamByKey : Dict SubgroupKey Nat
  fetchStreamByRequest : Dict Nat Nat
  history : List (Event Nat SubgroupKey)
  /-- The subgroups whose ends were reported, in order. -/
  reports : List SubgroupKey
  closeErr : Option SessionCloseCode
  strays : List Nat

def DataPlane.tables (s : DataPlane) : BindingTables where
  streams := s.streams
  subgroupStreamByKey := s.subgroupStreamByKey
  fetchStreamByRequest := s.fetchStreamByRequest
  history := s.history
  reports := s.log.filterMap DataEvent.reported
  closeErr := s.closeErr
  strays := s.strays

def StreamKey.subgroup? : StreamKey → Option SubgroupKey
  | .subgroup key => some key
  | .fetch _ => none

def StreamKey.fetch? : StreamKey → Option Nat
  | .subgroup _ => none
  | .fetch requestId => some requestId

/-- A stream has no key before its header, nor while its header does not tell the subgroup. -/
structure DataStream.Fresh (st : DataStream) : Prop where
  headless : st.parser = none → st.key = none ∧ st.groupId = none
  unresolved : ∀ hdr, st.parser = some (.subgroup hdr) → hdr.subgroupId = none → st.key = none

namespace BindingTables

def keyOf (t : BindingTables) (streamId : Nat) : Option StreamKey :=
  (t.streams.get? streamId).bind (·.key)

def subgroupOf (t : BindingTables) (streamId : Nat) : Option SubgroupKey :=
  (t.keyOf streamId).bind StreamKey.subgroup?

def fetchOf (t : BindingTables) (streamId : Nat) : Option Nat :=
  (t.keyOf streamId).bind StreamKey.fetch?

/-- The key of an end in the history. -/
def endedKey : Event Nat SubgroupKey → Option SubgroupKey
  | .ended _ key => some key
  | _ => none

/-- The tables agree with the streams, and the history accounts for the ends. -/
structure Sound (t : BindingTables) : Prop where
  subgroups : Agrees t.subgroupStreamByKey t.subgroupOf
  fetches : Agrees t.fetchStreamByRequest t.fetchOf
  accounts : Accounts t.history t.subgroupOf
  reported : t.reports = t.history.filterMap endedKey
  fresh : ∀ streamId st, t.streams.get? streamId = some st → st.Fresh

/-- The session is open, and no stream was parsed on after its end. -/
def Live (t : BindingTables) : Prop := t.closeErr = none ∧ t.strays = []

/-- A change that keeps the bindings sound, as long as the session stays live. -/
def Keeps (t t' : BindingTables) : Prop := t'.Live → t.Live ∧ (t.Sound → t'.Sound)

theorem Keeps.rfl {t : BindingTables} : t.Keeps t := fun hlive => ⟨hlive, id⟩

theorem Keeps.trans {t t' t'' : BindingTables} (h : t.Keeps t') (h' : t'.Keeps t'') :
    t.Keeps t'' := by
  intro hlive
  have hlater := h' hlive
  have hearlier := h hlater.1
  exact ⟨hearlier.1, fun hsound => hlater.2 (hearlier.2 hsound)⟩

/-- A step that needs what the bindings were sound for. -/
theorem Keeps.of_sound {t t' : BindingTables} (hlive : t'.Live → t.Live)
    (h : t.Sound → t.Keeps t') : t.Keeps t' :=
  fun hlater => ⟨hlive hlater, fun hsound => (h hsound hlater).2 hsound⟩

/-! ### A stream ends -/

/-- A stream gives its key back and goes. -/
def drop (t : BindingTables) (streamId : Nat) : BindingTables :=
  let t' := { t with streams := t.streams.erase streamId }
  match t.keyOf streamId with
  | none => t'
  | some (.subgroup key) =>
      { t' with
        subgroupStreamByKey := t.subgroupStreamByKey.erase key
        history := t.history ++ [.ended streamId key]
        reports := t.reports ++ [key] }
  | some (.fetch requestId) =>
      { t' with fetchStreamByRequest := t.fetchStreamByRequest.erase requestId }

theorem drop_streams (t : BindingTables) (streamId : Nat) :
    (t.drop streamId).streams = t.streams.erase streamId := by
  unfold drop
  split <;> rfl

theorem live_drop {t : BindingTables} {streamId : Nat} : (t.drop streamId).Live ↔ t.Live := by
  unfold drop
  split <;> exact Iff.rfl

theorem keyOf_drop (t : BindingTables) (streamId j : Nat) :
    (t.drop streamId).keyOf j = if j = streamId then none else t.keyOf j := by
  rw [keyOf, drop_streams, Dict.get?_erase]
  split_ifs
  · rfl
  · rfl

theorem subgroupOf_drop (t : BindingTables) (streamId j : Nat) :
    (t.drop streamId).subgroupOf j = if j = streamId then none else t.subgroupOf j := by
  rw [subgroupOf, keyOf_drop]
  split_ifs
  · rfl
  · rfl

theorem fetchOf_drop (t : BindingTables) (streamId j : Nat) :
    (t.drop streamId).fetchOf j = if j = streamId then none else t.fetchOf j := by
  rw [fetchOf, keyOf_drop]
  split_ifs
  · rfl
  · rfl

/-- Leaving out an owner that holds nothing. -/
theorem leave_out {κ : Type} {key : Nat → Option κ} {i : Nat} (h : key i = none) (j : Nat) :
    (if j = i then none else key j) = key j := by
  split_ifs with hj
  · rw [hj, h]
  · rfl

theorem sound_drop {t : BindingTables} (h : t.Sound) (streamId : Nat) : (t.drop streamId).Sound := by
  have hsub := t.subgroupOf_drop streamId
  have hfetch := t.fetchOf_drop streamId
  have hfresh : ∀ i st, (t.drop streamId).streams.get? i = some st → st.Fresh := by
    intro i st hget
    rw [drop_streams, Dict.get?_erase] at hget
    split_ifs at hget
    exact h.fresh i st hget
  cases hkey : t.keyOf streamId with
  | none =>
      have hnone : t.subgroupOf streamId = none := by rw [subgroupOf, hkey]; rfl
      have hnone' : t.fetchOf streamId = none := by rw [fetchOf, hkey]; rfl
      have hsub' : ∀ i, (t.drop streamId).subgroupOf i = t.subgroupOf i := fun i =>
        (hsub i).trans (leave_out hnone i)
      have hfetch' : ∀ i, (t.drop streamId).fetchOf i = t.fetchOf i := fun i =>
        (hfetch i).trans (leave_out hnone' i)
      have hdrop : t.drop streamId = { t with streams := t.streams.erase streamId } := by
        rw [drop, hkey]
      refine ⟨?_, ?_, ?_, ?_, hfresh⟩
      · simpa only [hdrop] using h.subgroups.congr hsub'
      · simpa only [hdrop] using h.fetches.congr hfetch'
      · simpa only [hdrop] using h.accounts.congr hsub'
      · simpa only [hdrop] using h.reported
  | some key =>
      cases key with
      | subgroup key =>
          have hheld : t.subgroupOf streamId = some key := by rw [subgroupOf, hkey]; rfl
          have hnone : t.fetchOf streamId = none := by rw [fetchOf, hkey]; rfl
          have hfetch' : ∀ i, (t.drop streamId).fetchOf i = t.fetchOf i := fun i =>
            (hfetch i).trans (leave_out hnone i)
          have hdrop : t.drop streamId =
              { t with
                streams := t.streams.erase streamId
                subgroupStreamByKey := t.subgroupStreamByKey.erase key
                history := t.history ++ [.ended streamId key]
                reports := t.reports ++ [key] } := by
            rw [drop, hkey]
          refine ⟨?_, ?_, ?_, ?_, hfresh⟩
          · simpa only [hdrop] using h.subgroups.release hheld hsub
          · simpa only [hdrop] using h.fetches.congr hfetch'
          · simpa only [hdrop] using h.accounts.release hheld hsub (Or.inl rfl)
          · simp [hdrop, h.reported, endedKey]
      | fetch requestId =>
          have hheld : t.fetchOf streamId = some requestId := by rw [fetchOf, hkey]; rfl
          have hnone : t.subgroupOf streamId = none := by rw [subgroupOf, hkey]; rfl
          have hsub' : ∀ i, (t.drop streamId).subgroupOf i = t.subgroupOf i := fun i =>
            (hsub i).trans (leave_out hnone i)
          have hdrop : t.drop streamId =
              { t with
                streams := t.streams.erase streamId
                fetchStreamByRequest := t.fetchStreamByRequest.erase requestId } := by
            rw [drop, hkey]
          refine ⟨?_, ?_, ?_, ?_, hfresh⟩
          · simpa only [hdrop] using h.subgroups.congr hsub'
          · simpa only [hdrop] using h.fetches.release hheld hfetch
          · simpa only [hdrop] using h.accounts.congr hsub'
          · simpa only [hdrop] using h.reported

theorem keeps_drop (t : BindingTables) (streamId : Nat) : t.Keeps (t.drop streamId) :=
  fun hlive => ⟨live_drop.mp hlive, fun h => sound_drop h streamId⟩

/-! ### A stream is opened, or its state changes -/

def put (t : BindingTables) (streamId : Nat) (st : DataStream) : BindingTables :=
  { t with streams := t.streams.insert streamId st }

theorem keyOf_put {t : BindingTables} {streamId : Nat} {st : DataStream}
    (hkey : st.key = t.keyOf streamId) (j : Nat) : (t.put streamId st).keyOf j = t.keyOf j := by
  rw [keyOf, put, Dict.get?_insert]
  split_ifs with hj
  · rw [hj]
    exact hkey
  · rfl

theorem sound_put {t : BindingTables} (h : t.Sound) {streamId : Nat} {st : DataStream}
    (hkey : st.key = t.keyOf streamId) (hfresh : st.Fresh) : (t.put streamId st).Sound := by
  have hsub : ∀ j, (t.put streamId st).subgroupOf j = t.subgroupOf j := fun j => by
    rw [subgroupOf, keyOf_put hkey, subgroupOf]
  have hfetch : ∀ j, (t.put streamId st).fetchOf j = t.fetchOf j := fun j => by
    rw [fetchOf, keyOf_put hkey, fetchOf]
  refine ⟨h.subgroups.congr hsub, h.fetches.congr hfetch, h.accounts.congr hsub, h.reported, ?_⟩
  intro i st' hget
  rw [put, Dict.get?_insert] at hget
  split_ifs at hget
  · cases hget
    exact hfresh
  · exact h.fresh i st' hget

theorem keeps_put {t : BindingTables} {streamId : Nat} {st : DataStream}
    (hkey : st.key = t.keyOf streamId) (hfresh : t.Sound → st.Fresh) :
    t.Keeps (t.put streamId st) :=
  fun hlive => ⟨hlive, fun h => sound_put h hkey (hfresh h)⟩

/-! ### A stream gets a key -/

/-- The stream that has the key loses it to another. -/
def yieldKey (t : BindingTables) (streamId : Nat) (key : SubgroupKey) : BindingTables :=
  match t.subgroupStreamByKey.get? key with
  | none => t
  | some existing =>
      if existing = streamId then t
      else match t.streams.get? existing with
        | none => t
        | some old =>
            { t with
              streams := t.streams.insert existing { old with key := none }
              history := t.history ++ [.lost existing key] }

/-- The stream gets the key. -/
def grant (t : BindingTables) (streamId : Nat) (key : SubgroupKey) : BindingTables :=
  let t' : BindingTables :=
    { t with
      subgroupStreamByKey := t.subgroupStreamByKey.insert key streamId
      history := t.history ++ [.taken streamId key] }
  match t.streams.get? streamId with
  | none => t'
  | some st =>
      { t' with streams := t.streams.insert streamId { st with key := some (.subgroup key) } }

theorem live_yieldKey {t : BindingTables} {streamId : Nat} {key : SubgroupKey} :
    (t.yieldKey streamId key).Live ↔ t.Live := by
  unfold yieldKey
  split
  · exact Iff.rfl
  · split
    · exact Iff.rfl
    · split <;> exact Iff.rfl

theorem live_grant {t : BindingTables} {streamId : Nat} {key : SubgroupKey} :
    (t.grant streamId key).Live ↔ t.Live := by
  unfold grant
  dsimp only
  split <;> exact Iff.rfl

theorem yieldKey_self (t : BindingTables) (streamId : Nat) (key : SubgroupKey) :
    (t.yieldKey streamId key).streams.get? streamId = t.streams.get? streamId := by
  unfold yieldKey
  split
  · rfl
  · split_ifs with hsame
    · rfl
    · split
      · rfl
      · rename_i existing _ _ old _
        have hne : ¬ streamId = existing := fun heq => hsame heq.symm
        rw [Dict.get?_insert, if_neg hne]

/-- What is left when no stream has the key any more. -/
structure Yielded (t t' : BindingTables) (key : SubgroupKey) : Prop where
  subgroupStreamByKey : t'.subgroupStreamByKey = t.subgroupStreamByKey
  fetchStreamByRequest : t'.fetchStreamByRequest = t.fetchStreamByRequest
  keyOf : ∀ j, t'.keyOf j = if t.subgroupOf j = some key then none else t.keyOf j
  other : ∀ j, t.subgroupOf j ≠ some key → t'.streams.get? j = t.streams.get? j
  accounts : Accounts t'.history t'.subgroupOf
  reported : t'.reports = t'.history.filterMap endedKey
  fresh : ∀ streamId st, t'.streams.get? streamId = some st → st.Fresh

/-- A key that the table does not have is nobody's. -/
theorem Yielded.of_free {t : BindingTables} (h : t.Sound) {key : SubgroupKey}
    (hfree : ∀ j, t.subgroupOf j ≠ some key) : Yielded t t key where
  __ := h
  subgroupStreamByKey := rfl
  fetchStreamByRequest := rfl
  keyOf := fun j => (if_neg (hfree j)).symm
  other := fun _ _ => rfl

theorem yieldKey_spec {t : BindingTables} (h : t.Sound) {streamId : Nat} {key : SubgroupKey}
    (hnone : t.keyOf streamId = none) : Yielded t (t.yieldKey streamId key) key := by
  cases hget : t.subgroupStreamByKey.get? key with
  | none =>
      have hsame : t.yieldKey streamId key = t := by rw [yieldKey, hget]
      rw [hsame]
      apply Yielded.of_free h
      intro j hj
      rw [(h.subgroups key j).mpr hj] at hget
      cases hget
  | some existing =>
      have howner : t.subgroupOf existing = some key := (h.subgroups key existing).mp hget
      have hne : existing ≠ streamId := by
        rintro rfl
        rw [subgroupOf, hnone] at howner
        cases howner
      cases hold : t.streams.get? existing with
      | none =>
          rw [subgroupOf, keyOf, hold] at howner
          cases howner
      | some old =>
          have hyield : t.yieldKey streamId key =
              { t with
                streams := t.streams.insert existing { old with key := none }
                history := t.history ++ [.lost existing key] } := by
            simp only [yieldKey, hget, if_neg hne, hold]
          have honly : ∀ j, t.subgroupOf j = some key ↔ j = existing := by
            intro j
            rw [← h.subgroups key j, hget, Option.some.injEq, eq_comm]
          have hkey : ∀ j, (t.yieldKey streamId key).keyOf j =
              if j = existing then none else t.keyOf j := by
            intro j
            rw [keyOf, hyield, Dict.get?_insert]
            split_ifs
            · rfl
            · rfl
          have hsub : ∀ j, (t.yieldKey streamId key).subgroupOf j =
              if j = existing then none else t.subgroupOf j := by
            intro j
            rw [subgroupOf, hkey]
            split_ifs
            · rfl
            · rfl
          constructor
          · rw [hyield]
          · rw [hyield]
          · intro j
            rw [hkey j]
            simp only [honly j]
          · intro j hj
            have hj' : j ≠ existing := fun heq => hj ((honly j).mpr heq)
            rw [hyield, Dict.get?_insert, if_neg hj']
          · have haccounts := h.accounts.release howner hsub (Or.inr rfl)
            rw [hyield] at haccounts ⊢
            exact haccounts
          · simp [hyield, h.reported, endedKey]
          · intro i st hst
            rw [hyield, Dict.get?_insert] at hst
            split_ifs at hst
            · cases hst
              constructor
              · intro hparser
                exact ⟨rfl, ((h.fresh existing old hold).headless hparser).2⟩
              · intro _ _ _
                rfl
            · exact h.fresh i st hst

/-- A stream whose header tells its subgroup gets the key. -/
theorem sound_grant {t : BindingTables} (h : t.Sound) {streamId : Nat} {key : SubgroupKey}
    {st : DataStream} (hst : t.streams.get? streamId = some st) (hnone : st.key = none)
    (hparser : st.parser ≠ none)
    (hresolved : ∀ hdr, st.parser = some (.subgroup hdr) → hdr.subgroupId ≠ none) :
    ((t.yieldKey streamId key).grant streamId key).Sound := by
  have hkeyOf : t.keyOf streamId = none := by rw [keyOf, hst]; exact hnone
  have hyield : Yielded t (t.yieldKey streamId key) key := yieldKey_spec h hkeyOf
  have hself : t.subgroupOf streamId ≠ some key := by
    rw [subgroupOf, hkeyOf]
    simp
  have hst' : (t.yieldKey streamId key).streams.get? streamId = some st :=
    (hyield.other streamId hself).trans hst
  generalize t.yieldKey streamId key = mid at hyield hst'
  have hgrant : mid.grant streamId key =
      { mid with
        subgroupStreamByKey := mid.subgroupStreamByKey.insert key streamId
        history := mid.history ++ [.taken streamId key]
        streams := mid.streams.insert streamId { st with key := some (.subgroup key) } } := by
    simp only [grant, hst']
  have hkey : ∀ j, (mid.grant streamId key).keyOf j =
      if j = streamId then some (.subgroup key)
      else if t.subgroupOf j = some key then none else t.keyOf j := by
    intro j
    rw [← hyield.keyOf j, keyOf, hgrant, Dict.get?_insert]
    split_ifs
    · rfl
    · rfl
  have hsub : ∀ j, (mid.grant streamId key).subgroupOf j =
      if j = streamId then some key
      else if t.subgroupOf j = some key then none else t.subgroupOf j := by
    intro j
    rw [subgroupOf, hkey]
    split_ifs
    · rfl
    · rfl
    · rfl
  have hmidSub : ∀ j, mid.subgroupOf j =
      if t.subgroupOf j = some key then none else t.subgroupOf j := by
    intro j
    rw [subgroupOf, hyield.keyOf j]
    split_ifs
    · rfl
    · rfl
  have hmid : ∀ j, (mid.grant streamId key).subgroupOf j =
      if j = streamId then some key else mid.subgroupOf j := by
    intro j
    rw [hsub j, hmidSub j]
  have hfetch : ∀ j, (mid.grant streamId key).fetchOf j = t.fetchOf j := by
    intro j
    rw [fetchOf, hkey, fetchOf]
    split_ifs with hj hown
    · rw [hj, hkeyOf]
      rfl
    · cases hcase : t.keyOf j with
      | none => rfl
      | some other =>
          cases other with
          | subgroup _ => rfl
          | fetch requestId =>
              rw [subgroupOf, hcase] at hown
              cases hown
    · rfl
  have hmidNone : mid.subgroupOf streamId = none := by
    rw [hmidSub, if_neg hself, subgroupOf, hkeyOf]
    rfl
  constructor
  · have hagrees := h.subgroups.take hsub (by rw [subgroupOf, hkeyOf]; rfl)
    rw [← hyield.subgroupStreamByKey] at hagrees
    rw [hgrant] at hagrees ⊢
    exact hagrees
  · have hagrees := h.fetches.congr hfetch
    rw [← hyield.fetchStreamByRequest] at hagrees
    rw [hgrant] at hagrees ⊢
    exact hagrees
  · have haccounts := hyield.accounts.take hmidNone hmid
    rw [hgrant] at haccounts ⊢
    exact haccounts
  · simp [hgrant, hyield.reported, endedKey]
  · intro i st' hget
    rw [hgrant, Dict.get?_insert] at hget
    split_ifs at hget
    · cases hget
      constructor
      · intro habsent
        exact absurd habsent hparser
      · intro hdr hhdr hunresolved
        exact absurd hunresolved (hresolved hdr hhdr)
    · exact hyield.fresh i st' hget

/-- A request without a stream gets one that has no key. -/
theorem sound_bindFetch {t : BindingTables} (h : t.Sound) {streamId requestId : Nat}
    {st : DataStream} (hnone : t.keyOf streamId = none)
    (hfree : ∀ existing, t.fetchStreamByRequest.get? requestId = some existing →
      existing = streamId)
    (hkey : st.key = some (.fetch requestId)) (hfresh : st.Fresh) :
    ({ t with
        fetchStreamByRequest := t.fetchStreamByRequest.insert requestId streamId
        streams := t.streams.insert streamId st } : BindingTables).Sound := by
  set t' : BindingTables :=
    { t with
      fetchStreamByRequest := t.fetchStreamByRequest.insert requestId streamId
      streams := t.streams.insert streamId st } with ht'
  have hkeyOf : ∀ j, t'.keyOf j = if j = streamId then some (.fetch requestId) else t.keyOf j := by
    intro j
    rw [keyOf, ht', Dict.get?_insert]
    split_ifs
    · exact hkey
    · rfl
  have hunowned : ∀ j, t.fetchOf j ≠ some requestId := by
    intro j hj
    have hget := (h.fetches requestId j).mpr hj
    rw [hfree j hget, fetchOf, hnone] at hj
    cases hj
  have hfetch : ∀ j, t'.fetchOf j =
      if j = streamId then some requestId
      else if t.fetchOf j = some requestId then none else t.fetchOf j := by
    intro j
    rw [if_neg (hunowned j), fetchOf, hkeyOf]
    split_ifs
    · rfl
    · rfl
  have hsub : ∀ j, t'.subgroupOf j = t.subgroupOf j := by
    intro j
    rw [subgroupOf, hkeyOf, subgroupOf]
    split_ifs with hj
    · rw [hj, hnone]
      rfl
    · rfl
  constructor
  · exact h.subgroups.congr hsub
  · exact h.fetches.take hfetch (by rw [fetchOf, hnone]; rfl)
  · exact h.accounts.congr hsub
  · exact h.reported
  · intro i st' hget
    rw [ht', Dict.get?_insert] at hget
    split_ifs at hget
    · cases hget
      exact hfresh
    · exact h.fresh i st' hget

/-- The binding of a request is dropped; its stream goes on. -/
theorem sound_unbindFetch {t : BindingTables} (h : t.Sound) {streamId requestId : Nat}
    (hbound : t.fetchStreamByRequest.get? requestId = some streamId) {st : DataStream}
    (hst : t.streams.get? streamId = some st) :
    ({ t with
        fetchStreamByRequest := t.fetchStreamByRequest.erase requestId
        streams := t.streams.insert streamId { st with key := none } } : BindingTables).Sound := by
  set t' : BindingTables :=
    { t with
      fetchStreamByRequest := t.fetchStreamByRequest.erase requestId
      streams := t.streams.insert streamId { st with key := none } } with ht'
  have hheld : t.fetchOf streamId = some requestId := (h.fetches requestId streamId).mp hbound
  have hkeyOf : ∀ j, t'.keyOf j = if j = streamId then none else t.keyOf j := by
    intro j
    rw [keyOf, ht', Dict.get?_insert]
    split_ifs
    · rfl
    · rfl
  have hfetch : ∀ j, t'.fetchOf j = if j = streamId then none else t.fetchOf j := by
    intro j
    rw [fetchOf, hkeyOf]
    split_ifs
    · rfl
    · rfl
  have hsub : ∀ j, t'.subgroupOf j = t.subgroupOf j := by
    intro j
    rw [subgroupOf, hkeyOf, subgroupOf]
    split_ifs with hj
    · subst hj
      cases hcase : t.keyOf j with
      | none => rfl
      | some key =>
          cases key with
          | fetch _ => rfl
          | subgroup _ =>
              rw [fetchOf, hcase] at hheld
              cases hheld
    · rfl
  constructor
  · exact h.subgroups.congr hsub
  · exact h.fetches.release hheld hfetch
  · exact h.accounts.congr hsub
  · exact h.reported
  · intro i st' hget
    rw [ht', Dict.get?_insert] at hget
    split_ifs at hget
    · cases hget
      constructor
      · intro hparser
        exact ⟨rfl, ((h.fresh streamId st hst).headless hparser).2⟩
      · intro _ _ _
        rfl
    · exact h.fresh i st' hget

theorem keeps_closed {t t' : BindingTables} (h : t'.closeErr ≠ none) : t.Keeps t' :=
  fun hlive => absurd hlive.1 h

end BindingTables

/-! ## What the operations do to the tables -/

namespace DataPlane

/-- The bindings stay sound from one state to the other, while the session is live. -/
def Keeps (s s' : DataPlane) : Prop := s.tables.Keeps s'.tables

theorem Keeps.of_tables {s s' : DataPlane} (h : s'.tables = s.tables) : s.Keeps s' := by
  rw [Keeps, h]
  exact BindingTables.Keeps.rfl

theorem Keeps.trans {s s' s'' : DataPlane} (h : s.Keeps s') (h' : s'.Keeps s'') : s.Keeps s'' :=
  BindingTables.Keeps.trans h h'

theorem Keeps.rfl {s : DataPlane} : s.Keeps s := BindingTables.Keeps.rfl

theorem tables_of_core {s s' : DataPlane} (h : s'.core = s.core) : s'.tables = s.tables :=
  (congrArg tables h :)

theorem markStreamTornDown_tables (s : DataPlane) (now streamId : Nat) :
    (s.markStreamTornDown now streamId).tables = s.tables := by
  unfold markStreamTornDown
  dsimp only
  split <;> rfl

/-- An event that reports no end. -/
theorem logged_tables (s : DataPlane) {event : DataEvent} (h : event.reported = none) :
    ({ s with log := s.log ++ [event] } : DataPlane).tables = s.tables := by
  simp [tables, h]

theorem reportStreamEnd_tables (s : DataPlane) (now streamId : Nat) (key : SubgroupKey)
    (clean : Bool) (resetCode : Nat) :
    (s.reportStreamEnd now streamId key clean resetCode).tables =
      { s.tables with
        history := s.tables.history ++ [.ended streamId key]
        reports := s.tables.reports ++ [key] } := by
  have hreports : (s.log ++ [DataEvent.streamEnd (s.streamEndHandlers.get? key.trackAlias)
      key.trackAlias ⟨key.groupId, key.subgroupId, clean, resetCode⟩]).filterMap
        DataEvent.reported = s.tables.reports ++ [key] := by
    simp [tables, DataEvent.reported]
  rw [← hreports]
  exact tables_of_core (reportStreamEnd_core s now streamId key clean resetCode)

theorem cleanupStream_tables (env : DataEnv) (s : DataPlane) (now streamId : Nat) (clean : Bool)
    (resetCode : Nat) :
    (s.cleanupStream env now streamId clean resetCode).tables = s.tables.drop streamId := by
  have hgone : (({ s with streams := s.streams.erase streamId } : DataPlane).markStreamTornDown now
      streamId).tables = { s.tables with streams := s.streams.erase streamId } :=
    markStreamTornDown_tables _ now streamId
  unfold cleanupStream BindingTables.drop BindingTables.keyOf
  dsimp only
  cases hst : s.streams.get? streamId with
  | none =>
      have hkey : (s.tables.streams.get? streamId).bind (·.key) = none := by
        rw [tables, hst]
        rfl
      rw [hkey]
      exact hgone
  | some st =>
      have hkey : (s.tables.streams.get? streamId).bind (·.key) = st.key := by
        rw [tables, hst]
        rfl
      rw [hkey]
      generalize ({ s with streams := s.streams.erase streamId } : DataPlane).markStreamTornDown now
        streamId = gone at hgone
      dsimp only
      cases hkey' : st.key with
      | none => exact hgone
      | some key =>
          cases key with
          | subgroup key =>
              set reported := (({ gone with rxHeldBytes := gone.rxHeldBytes - st.held } :
                DataPlane).fixGroupEnd st key clean).reportStreamEnd now streamId key clean resetCode
              have hfixed : (({ gone with rxHeldBytes := gone.rxHeldBytes - st.held } :
                  DataPlane).fixGroupEnd st key clean).tables = gone.tables :=
                (tables_of_core (fixGroupEnd_core _ st key clean)).trans rfl
              have hreported : reported.tables =
                  { gone.tables with
                    history := gone.tables.history ++ [.ended streamId key]
                    reports := gone.tables.reports ++ [key] } := by
                rw [← hfixed]
                exact reportStreamEnd_tables _ now streamId key clean resetCode
              show ({ reported.tables with
                subgroupStreamByKey := reported.tables.subgroupStreamByKey.erase key } :
                  BindingTables) = _
              rw [hreported, hgone]
              rfl
          | fetch requestId =>
              have hreports : (gone.log ++ [DataEvent.fetchDone requestId clean]).filterMap
                  DataEvent.reported = gone.tables.reports := by
                simp [tables, DataEvent.reported]
              show ({ gone.tables with
                fetchStreamByRequest := gone.tables.fetchStreamByRequest.erase requestId
                reports := (gone.log ++ [DataEvent.fetchDone requestId clean]).filterMap
                  DataEvent.reported } : BindingTables) = _
              rw [hreports, hgone]
              rfl

theorem keeps_cleanupStream (env : DataEnv) (s : DataPlane) (now streamId : Nat) (clean : Bool)
    (resetCode : Nat) : s.Keeps (s.cleanupStream env now streamId clean resetCode) := by
  rw [Keeps, cleanupStream_tables]
  exact BindingTables.keeps_drop s.tables streamId

theorem rejectStream_tables (env : DataEnv) (s : DataPlane) (now streamId errorCode : Nat) :
    (s.rejectStream env now streamId errorCode).tables = s.tables.drop streamId := by
  rw [rejectStream, cleanupStream_tables]
  congr 1
  exact logged_tables s rfl

theorem holdEarlyObject_tables (s : DataPlane) (now : Nat) (arrival : Arrival) :
    (s.holdEarlyObject now arrival).tables = s.tables := by
  unfold holdEarlyObject
  dsimp only
  split
  · rfl
  · split
    · rfl
    · simp [tables, expireEarlyObjects, DataEvent.reported]

theorem keeps_ends (env : DataEnv) (now : Nat) : Ends env now (fun _ => True) Keeps where
  refl := fun _ => Keeps.rfl
  trans := Keeps.trans
  known := fun h => h fun _ _ => trivial
  aside := fun h => Keeps.of_tables (tables_of_core h)
  logged := by
    intro s event hplain
    apply Keeps.of_tables
    apply logged_tables
    cases event <;> first | rfl | cases hplain
  tear := fun s _ _ => Keeps.of_tables (markStreamTornDown_tables s now _)
  cleanup := fun s _ clean resetCode _ => keeps_cleanupStream env s now _ clean resetCode
  close := fun s errorCode => BindingTables.keeps_closed (closeSession_closed s now errorCode)

/-- The bindings stay sound whatever callbacks do. -/
theorem keeps_walks (env : DataEnv) (now : Nat) : Walks env now (fun _ => True) Keeps where
  toEnds := keeps_ends env now
  sweeps := by
    intro s trackAlias
    apply (keeps_ends env now).sweep
    apply Keeps.of_tables
    simp [tables, DataEvent.reported]
  forget := by
    intro s trackAlias
    apply Keeps.of_tables
    simp [forgetTrackBounds, tables, DataEvent.reported]
  discard := fun _ _ => Keeps.of_tables rfl
  binds := fun hafter => (keeps_ends env now).replays hafter fun _ _ _ _ => Keeps.of_tables rfl

theorem keeps_deliverArrival (env : DataEnv) (s : DataPlane) (now : Nat) (arrival : Arrival) :
    s.Keeps (s.deliverArrival env now arrival) :=
  (keeps_walks env now).deliver (fun _ => Keeps.of_tables (logged_tables s rfl))
    (Keeps.of_tables (holdEarlyObject_tables s now arrival))

/-! ## Streams -/

theorem fresh_alike {st st' : DataStream} (h : st.Fresh) (halike : st.Alike st') : st'.Fresh := by
  rcases halike.parser with ⟨hparser, hgroup⟩ | ⟨hdr, hfetch⟩
  · constructor
    · rw [halike.key, hparser, hgroup]
      exact h.headless
    · rw [halike.key, hparser]
      exact h.unresolved
  · constructor
    · intro habsent
      rw [hfetch] at habsent
      cases habsent
    · intro hdr' hsubgroup
      rw [hfetch] at hsubgroup
      cases hsubgroup

/-- A stream that is still there changes, but for its key. -/
theorem keeps_putStream (s : DataPlane) (streamId : Nat) (st : DataStream)
    (h : ∀ old, s.streams.get? streamId = some old →
      st.key = old.key ∧ (s.tables.Sound → st.Fresh)) : s.Keeps (s.putStream streamId st) := by
  cases hget : s.streams.get? streamId with
  | none =>
      rw [putStream_of_gone hget]
      exact Keeps.of_tables rfl
  | some old =>
      rw [putStream_of_open hget]
      apply BindingTables.keeps_put
      · rw [BindingTables.keyOf]
        show st.key = (s.streams.get? streamId).bind (·.key)
        rw [hget]
        exact (h old hget).1
      · exact (h old hget).2

theorem keeps_putAlike (s : DataPlane) {streamId : Nat} {st st' : DataStream}
    (hst : s.Current streamId st) (halike : st.Alike st') : s.Keeps (s.putStream streamId st') := by
  apply keeps_putStream
  intro old hold
  rw [hst old hold] at *
  exact ⟨halike.key, fun hsound => fresh_alike (hsound.fresh streamId st hold) halike⟩

theorem bindSubgroupStream_tables (s : DataPlane) (streamId : Nat) (key : SubgroupKey) :
    (s.bindSubgroupStream streamId key).tables =
      (s.tables.yieldKey streamId key).grant streamId key := by
  set yielded : DataPlane :=
    match s.subgroupStreamByKey.get? key with
    | none => s
    | some existing =>
        if existing = streamId then s
        else match s.streams.get? existing with
          | none => s
          | some old =>
              { s with
                streams := s.streams.insert existing { old with key := none }
                history := s.history ++ [.lost existing key] } with hyielded
  have htables : yielded.tables = s.tables.yieldKey streamId key := by
    rw [hyielded]
    unfold BindingTables.yieldKey
    show _ = match s.subgroupStreamByKey.get? key with
      | none => s.tables
      | some existing => _
    split
    · rfl
    · show _ = if _ then _ else match s.streams.get? _ with
        | none => _
        | some old => _
      split_ifs
      · rfl
      · split <;> rfl
  rw [← htables]
  show (match yielded.streams.get? streamId with
    | none => _
    | some st => _ : DataPlane).tables = match yielded.streams.get? streamId with
      | none => _
      | some st => _
  split <;> rfl

theorem live_bindSubgroupStream {s : DataPlane} {streamId : Nat} {key : SubgroupKey} :
    (s.bindSubgroupStream streamId key).tables.Live ↔ s.tables.Live := by
  rw [bindSubgroupStream_tables, BindingTables.live_grant, BindingTables.live_yieldKey]

theorem keeps_bindSubgroupStream {s : DataPlane} {streamId : Nat} (key : SubgroupKey)
    {st : DataStream} (hst : s.streams.get? streamId = some st) (hnone : st.key = none)
    (hparser : st.parser ≠ none)
    (hresolved : ∀ hdr, st.parser = some (.subgroup hdr) → hdr.subgroupId ≠ none) :
    s.Keeps (s.bindSubgroupStream streamId key) := by
  intro hlive
  refine ⟨live_bindSubgroupStream.mp hlive, fun hsound => ?_⟩
  rw [bindSubgroupStream_tables]
  exact BindingTables.sound_grant hsound hst hnone hparser hresolved

/-- The stream has the key. -/
theorem bindSubgroupStream_self {s : DataPlane} {streamId : Nat} (key : SubgroupKey)
    {st : DataStream} (hst : s.streams.get? streamId = some st) :
    (s.bindSubgroupStream streamId key).streams.get? streamId =
      some { st with key := some (.subgroup key) } := by
  have hyield : (s.tables.yieldKey streamId key).streams.get? streamId = some st :=
    (BindingTables.yieldKey_self s.tables streamId key).trans hst
  show (s.bindSubgroupStream streamId key).tables.streams.get? streamId = _
  rw [bindSubgroupStream_tables, BindingTables.grant]
  dsimp only
  rw [hyield]
  exact (Dict.get?_insert _ _ _ _).trans (if_pos rfl)

/-! ## Turns of the drain loop -/

/-- A subgroup header on a stream that may have ended. -/
theorem live_handleSubgroupHeader {env : DataEnv} {s : DataPlane} {now streamId : Nat}
    {st : DataStream} {hdr : SubgroupHeader}
    (h : (s.handleSubgroupHeader env now streamId st hdr).plane.tables.Live) : s.tables.Live := by
  have hbind : ∀ s' : DataPlane, ((subgroupKey hdr).elim s' fun key =>
      s'.bindSubgroupStream streamId key).tables.Live → s'.tables.Live := by
    intro s' hlive
    cases hkey : subgroupKey hdr with
    | none => rwa [hkey] at hlive
    | some key =>
        rw [hkey] at hlive
        exact live_bindSubgroupStream.mp hlive
  have hput : ∀ (s' : DataPlane) st', (s'.putStream streamId st').tables.Live → s'.tables.Live := by
    intro s' st' hlive
    unfold putStream at hlive
    split_ifs at hlive
    · exact hlive
    · exact hlive
  have hnoted : (s.noteUnboundAlias hdr.trackAlias).tables.Live ↔ s.tables.Live := by
    rw [tables_of_core (noteUnboundAlias_core s hdr.trackAlias)]
  unfold handleSubgroupHeader at h
  split_ifs at h
  · exact ((keeps_walks env now).reject s trivial _ h).1
  · exact hnoted.mp (hbind _ ((keeps_walks env now).malformedAt _ _ trivial h).1)
  · exact hnoted.mp (hput _ _ (hbind _ h))

theorem keeps_handleSubgroupHeader (env : DataEnv) {s : DataPlane} (now : Nat) {streamId : Nat}
    {old : DataStream} (hold : s.streams.get? streamId = some old) (hparser : old.parser = none)
    (rest : Bytes) (hdr : SubgroupHeader) :
    s.Keeps (s.handleSubgroupHeader env now streamId { old with chain := rest } hdr).plane := by
  apply BindingTables.Keeps.of_sound live_handleSubgroupHeader
  intro hsound
  obtain ⟨hkey, hgroup⟩ := (hsound.fresh streamId old hold).headless hparser
  unfold handleSubgroupHeader
  split_ifs with hmalformed hbegun
  · exact (keeps_walks env now).reject s trivial _
  · simp [hgroup] at hbegun
  · rw [more_plane]
    set st : DataStream :=
      { old with
        chain := rest
        parser := some (.subgroup hdr)
        groupId := some hdr.groupId
        subgroupId := hdr.subgroupId }
    set noted := s.noteUnboundAlias hdr.trackAlias
    have hnoted : noted.tables = s.tables :=
      tables_of_core (noteUnboundAlias_core s hdr.trackAlias)
    have hget : noted.streams.get? streamId = some old := by
      rw [← hold]
      exact congrArg (fun t : BindingTables => t.streams.get? streamId) hnoted
    have hput : noted.Keeps (noted.putStream streamId st) := by
      apply keeps_putStream
      intro old' hold'
      rw [hget, Option.some.injEq] at hold'
      subst hold'
      refine ⟨rfl, fun _ => ⟨?_, ?_⟩⟩
      · intro habsent
        cases habsent
      · intro _ _ _
        exact hkey
    have hafter : (noted.putStream streamId st).streams.get? streamId = some st := by
      rw [putStream_of_open hget]
      exact (Dict.get?_insert _ _ _ _).trans (if_pos rfl)
    apply ((Keeps.of_tables hnoted).trans hput).trans
    cases hsubgroup : subgroupKey hdr with
    | none => exact Keeps.of_tables rfl
    | some key =>
        apply keeps_bindSubgroupStream key hafter hkey
        · intro habsent
          cases habsent
        · intro hdr' hhdr hunresolved
          cases hhdr
          rw [subgroupKey, hunresolved] at hsubgroup
          cases hsubgroup

/-- A request admits the stream that it has, or its first one. -/
theorem admitFetchStream_free {env : DataEnv} {s : DataPlane} {streamId requestId existing : Nat}
    {hdr : FetchHeader} (h : s.admitFetchStream env streamId requestId = some hdr)
    (hget : s.fetchStreamByRequest.get? requestId = some existing) : existing = streamId := by
  unfold admitFetchStream at h
  dsimp only at h
  rw [hget] at h
  split at h
  · cases h
  · rename_i hnone
    cases hnone
  · rename_i hsome
    cases hsome
    split_ifs at h with heq
    exact heq

theorem live_putStream {s : DataPlane} {streamId : Nat} {st : DataStream} :
    (s.putStream streamId st).tables.Live ↔ s.tables.Live := by
  unfold putStream
  split_ifs <;> exact Iff.rfl

theorem live_handleFetchHeader {env : DataEnv} {s : DataPlane} {now streamId requestId : Nat}
    {st : DataStream}
    (h : (s.handleFetchHeader env now streamId st requestId).plane.tables.Live) :
    s.tables.Live := by
  unfold handleFetchHeader at h
  split at h
  · exact ((keeps_walks env now).reject s trivial _ h).1
  · have hbound : ({ s with
        fetchStreamByRequest := s.fetchStreamByRequest.insert requestId streamId } :
        DataPlane).tables.Live := live_putStream.mp h
    exact hbound

theorem keeps_handleFetchHeader (env : DataEnv) {s : DataPlane} (now : Nat) {streamId : Nat}
    {old : DataStream} (hold : s.streams.get? streamId = some old) (hparser : old.parser = none)
    (rest : Bytes) (requestId : Nat) :
    s.Keeps (s.handleFetchHeader env now streamId { old with chain := rest } requestId).plane := by
  apply BindingTables.Keeps.of_sound live_handleFetchHeader
  intro hsound
  have hkey := ((hsound.fresh streamId old hold).headless hparser).1
  apply (keeps_walks env now).fetchHeader trivial
  · intro hdr hadmit
    set st : DataStream :=
      { old with
        chain := rest
        parser := some (.fetch hdr)
        key := some (.fetch requestId) }
    set bound : DataPlane :=
      { s with fetchStreamByRequest := s.fetchStreamByRequest.insert requestId streamId }
    have hget : bound.streams.get? streamId = some old := hold
    intro hlive
    have hbound : bound.tables.Live := live_putStream.mp hlive
    refine ⟨hbound, fun _ => ?_⟩
    rw [putStream_of_open hget]
    apply BindingTables.sound_bindFetch hsound
    · rw [BindingTables.keyOf]
      show (s.streams.get? streamId).bind (·.key) = none
      rw [hold]
      exact hkey
    · intro existing hget
      exact admitFetchStream_free hadmit hget
    · rfl
    · constructor
      · intro habsent
        cases habsent
      · intro hdr' hhdr _
        cases hhdr

/-! ### Objects -/

theorem keeps_checkObject (env : DataEnv) {s : DataPlane} (now : Nat) {streamId : Nat}
    {st : DataStream} (hst : s.Current streamId st) (obj : ObjectHeader) (hdr : SubgroupHeader)
    (consumed : Nat) : s.Keeps (s.checkObject env now streamId st obj hdr consumed).plane :=
  (keeps_walks env now).checkObject (k := Keeps) (q := Keeps) trivial Keeps.trans Keeps.trans id
    (fun s _ _ => keeps_putAlike s) (fun s arrival _ => keeps_deliverArrival env s now arrival) hst
    obj consumed

theorem advance_subgroupId {hdr : SubgroupHeader} {objectId : Nat}
    (h : (hdr.advance objectId).subgroupId = none) :
    hdr.subgroupId = none ∧ hdr.subgroupIdMode ≠ .firstObj := by
  unfold SubgroupHeader.advance at h
  dsimp only at h
  split_ifs at h with hfirst
  refine ⟨h, fun hmode => hfirst ⟨hmode, h⟩⟩

/-- An object of an open stream: if its header did not tell the subgroup, the object does. -/
theorem keeps_handleObject (env : DataEnv) {s : DataPlane} (now : Nat) {streamId : Nat}
    {old : DataStream} (hold : s.streams.get? streamId = some old) {hdr : SubgroupHeader}
    (hparser : old.parser = some (.subgroup hdr)) (rest : Bytes) (obj : ObjectHeader)
    (consumed : Nat) :
    s.Keeps (s.handleObject env now streamId { old with chain := rest } obj
      (hdr.advance obj.objectId) consumed).plane := by
  unfold handleObject
  dsimp only
  set st : DataStream :=
    { old with
      chain := rest
      parser := some (.subgroup (hdr.advance obj.objectId)) } with hst
  have hput : s.Keeps (s.putStream streamId st) := by
    apply keeps_putStream
    intro old' hold'
    rw [hold, Option.some.injEq] at hold'
    subst hold'
    refine ⟨rfl, fun hsound => ⟨?_, ?_⟩⟩
    · intro habsent
      cases habsent
    · intro hdr' hhdr hunresolved
      cases hhdr
      exact (hsound.fresh streamId old hold).unresolved hdr hparser
        (advance_subgroupId hunresolved).1
  have hget : (s.putStream streamId st).streams.get? streamId = some st := by
    rw [putStream_of_open hold]
    exact (Dict.get?_insert _ _ _ _).trans (if_pos rfl)
  rw [hparser, Option.any_some]
  by_cases hunresolved : hdr.subgroupIdMode = .firstObj ∧ hdr.subgroupId = none
  · have hkey : subgroupKey (hdr.advance obj.objectId) =
        some ⟨hdr.trackAlias, hdr.groupId, obj.objectId⟩ := by
      simp [subgroupKey, SubgroupHeader.advance, hunresolved]
    have htold : (decide (hdr.subgroupIdMode = .firstObj) && hdr.subgroupId.isNone) = true := by
      simp [hunresolved]
    rw [if_pos htold, hkey, Option.elim_some]
    set key : SubgroupKey := ⟨hdr.trackAlias, hdr.groupId, obj.objectId⟩
    have hself := bindSubgroupStream_self key hget
    have hstate : ((s.putStream streamId st).bindSubgroupStream streamId key).streamState streamId
        st = { st with key := some (.subgroup key) } := by
      rw [streamState, hself, Option.getD_some]
    rw [hstate]
    have hcheck := keeps_checkObject env now (current_of_open hself) obj (hdr.advance obj.objectId)
      consumed
    apply BindingTables.Keeps.of_sound
    · intro hlive
      exact live_putStream.mp (live_bindSubgroupStream.mp (hcheck hlive).1)
    · intro hsound
      have hnone : st.key = none :=
        (hsound.fresh streamId old hold).unresolved hdr hparser hunresolved.2
      apply (hput.trans (keeps_bindSubgroupStream key hget hnone _ _)).trans hcheck
      · intro habsent
        cases habsent
      · intro hdr' hhdr hnone'
        cases hhdr
        exact (advance_subgroupId hnone').2 hunresolved.1
  · have htold : ¬ (decide (hdr.subgroupIdMode = .firstObj) && hdr.subgroupId.isNone) = true := by
      simpa using hunresolved
    have hstate : (s.putStream streamId st).streamState streamId st = st := by
      rw [streamState, hget, Option.getD_some]
    rw [if_neg htold, hstate]
    exact hput.trans (keeps_checkObject env now (current_of_open hget) obj _ consumed)

theorem keeps_handleItem (env : DataEnv) {s : DataPlane} (now : Nat) {streamId : Nat}
    {st : DataStream} (hst : s.streams.get? streamId = some st) {item : StreamItem} {cur : Cursor}
    (hpull : pullStreamItem env.prof env.maxObjectBytes env.needed st.parser st.chain =
      .ok (item, cur)) :
    s.Keeps (s.handleItem env now streamId { st with chain := cur.rest } cur.pos item).plane := by
  rcases Option.eq_none_or_eq_some st.parser with hparser | ⟨parser, hparser⟩
  · rw [hparser] at hpull
    have hheader := pullStreamHeader_isHeader hpull
    cases item with
    | padding => exact (keeps_walks env now).reject s trivial _
    | subgroupHeader hdr => exact keeps_handleSubgroupHeader env now hst hparser cur.rest hdr
    | fetchHeader requestId => exact keeps_handleFetchHeader env now hst hparser cur.rest requestId
    | object obj hdr => cases hheader
    | fetchObject obj hdr => cases hheader
  · rw [hparser] at hpull
    rcases pullStreamItem_parsed hpull with ⟨hdr, obj, rfl, rfl⟩ | ⟨_, obj, hdr, rfl, rfl⟩
    · exact keeps_handleObject env now hst hparser cur.rest obj cur.pos
    · apply (keeps_walks env now).fetchObject
      exact keeps_putAlike s (current_of_open hst) ⟨rfl, rfl, Or.inr ⟨hdr, rfl⟩⟩

theorem keeps_parseFailed (env : DataEnv) {s : DataPlane} (now : Nat) {streamId : Nat}
    {st : DataStream} (hst : s.Current streamId st) (parser : Option StreamParser) (e : MoqtError) :
    s.Keeps (s.parseFailed env now streamId st parser e) :=
  (keeps_walks env now).parseFailed trivial
    (fun _ => keeps_putAlike s hst ⟨rfl, rfl, Or.inl ⟨rfl, rfl⟩⟩) parser e

/-- What an ended stream brings: only heads of streams are read. -/
theorem live_stray {env : DataEnv} {s : DataPlane} {now streamId : Nat} {st : DataStream}
    {item : StreamItem} {consumed : Nat} (hheader : item.isHeader = true)
    (h : (s.handleItem env now streamId st consumed item).plane.tables.Live) : s.tables.Live := by
  cases item with
  | padding => exact ((keeps_walks env now).reject s trivial _ h).1
  | subgroupHeader hdr => exact live_handleSubgroupHeader h
  | fetchHeader requestId => exact live_handleFetchHeader h
  | object obj hdr => cases hheader
  | fetchObject obj hdr => cases hheader

theorem keeps_drainTurn (env : DataEnv) {s : DataPlane} (now : Nat) {streamId : Nat}
    {st : DataStream} (hst : s.Current streamId st) :
    s.Keeps (s.drainTurn env now streamId st).plane := by
  cases hget : s.streams.get? streamId with
  | none =>
      have hgone : ¬ streamId ∈ s.streams.keys := fun hkey => Dict.mem_keys.mp hkey hget
      set strayed : DataPlane := { s with strays := s.strays ++ [streamId] } with hstrayed
      have hdead : ¬ strayed.tables.Live := by
        intro hlive
        have hnil : s.strays ++ [streamId] = [] := hlive.2
        simp at hnil
      intro hlive
      exfalso
      apply hdead
      unfold drainTurn at hlive
      simp only [hgone, decide_false, Bool.false_eq_true, if_false] at hlive
      rw [← hstrayed] at hlive
      split at hlive
      · have hopen : strayed.Current streamId st := hst
        exact (keeps_parseFailed env now hopen none _ hlive).1
      · rename_i hpull
        exact live_stray (pullStreamHeader_isHeader hpull) hlive
  | some old =>
      have hsame := hst old hget
      subst hsame
      have hopen : streamId ∈ s.streams.keys := Dict.mem_keys.mpr (by simp [hget])
      unfold drainTurn
      simp only [hopen, decide_true, if_true]
      split
      · exact keeps_parseFailed env now hst old.parser _
      · rename_i hpull
        exact keeps_handleItem env now hget hpull

theorem keeps_countHeld (env : DataEnv) (s : DataPlane) (now streamId : Nat) :
    s.Keeps (s.countHeld env now streamId) := by
  apply (keeps_ends env now).count
  intro st bytes hst
  apply BindingTables.keeps_put
  · rw [BindingTables.keyOf]
    show st.key = (s.streams.get? streamId).bind (·.key)
    rw [hst]
    rfl
  · intro hsound
    have hfresh := hsound.fresh streamId st hst
    exact ⟨hfresh.headless, hfresh.unresolved⟩

theorem keeps_onStreamData (env : DataEnv) (s : DataPlane) (now streamId : Nat) (data : Bytes)
    (endStream : Bool) : s.Keeps (s.onStreamData env now streamId data endStream) := by
  rcases onStreamData_cases env s now streamId data endStream with
    hsame | ⟨chain, need, st, opened, drained, hst, rfl, hcurrent, hdrain, hrest⟩
  · rw [hsame]
    exact Keeps.rfl
  set opened : DataPlane := { s with streams := s.streams.insert streamId st }
  have hopened : s.Keeps opened := by
    apply BindingTables.keeps_put
    · rw [BindingTables.keyOf, hst]
      show (s.streamState streamId _).key = (s.streams.get? streamId).bind (·.key)
      rw [streamState]
      cases s.streams.get? streamId <;> rfl
    · intro hsound
      cases hget : s.streams.get? streamId with
      | none =>
          rw [hst, streamState, hget]
          constructor
          · intro _
            exact ⟨rfl, rfl⟩
          · intro _ _ _
            rfl
      | some old =>
          have hfresh := hsound.fresh streamId old hget
          rw [hst, streamState, hget]
          exact ⟨hfresh.headless, hfresh.unresolved⟩
  have hdrained : opened.Keeps drained := by
    rcases hdrain with rfl | rfl
    · exact Keeps.rfl
    · exact (keeps_walks env now).drain (fun s st hst => keeps_drainTurn env now hst) _ hcurrent
  have hcounted := (hopened.trans hdrained).trans (keeps_countHeld env drained now streamId)
  rcases hrest with hrest | hrest
  · rw [hrest]
    exact hcounted
  · rw [hrest]
    exact hcounted.trans ((keeps_ends env now).finish _ trivial)

/-! ## Steps and runs -/

theorem keeps_handleFetchError (s : DataPlane) (requestId : Nat) :
    s.Keeps (s.handleFetchError requestId) := by
  cases hget : s.fetchStreamByRequest.get? requestId with
  | none =>
      rw [handleFetchError, hget]
      exact Keeps.of_tables rfl
  | some streamId =>
      cases hst : s.streams.get? streamId with
      | none =>
          intro hlive
          rw [handleFetchError, hget] at hlive ⊢
          simp only [hst] at hlive ⊢
          refine ⟨hlive, fun hsound => ?_⟩
          have howner := (hsound.fetches requestId streamId).mp hget
          have hnone : s.tables.keyOf streamId = none := by
            rw [BindingTables.keyOf]
            show (s.streams.get? streamId).bind (·.key) = none
            rw [hst]
            rfl
          rw [BindingTables.fetchOf, hnone] at howner
          cases howner
      | some st =>
          intro hlive
          rw [handleFetchError, hget] at hlive ⊢
          simp only [hst] at hlive ⊢
          refine ⟨hlive, fun hsound => ?_⟩
          have htables := BindingTables.sound_unbindFetch hsound hget hst
          have hreports : (s.log ++ [DataEvent.stopSending streamId
              StreamResetCode.cancelled.code]).filterMap DataEvent.reported =
              s.tables.reports := by
            simp [tables, DataEvent.reported]
          rw [← hreports] at htables
          exact htables

theorem keeps_step (env : DataEnv) (s : DataPlane) (event : Nat × DataPlaneEvent) :
    s.Keeps (s.step env event) := by
  obtain ⟨now, event⟩ := event
  apply (keeps_walks env now).step
  · exact fun _ _ => trivial
  · exact fun streamId data endStream _ => keeps_onStreamData env s now streamId data endStream
  · intro trackAlias groupId obj consumed endOfGroup
    exact (keeps_walks env now).datagram (fun _ => keeps_deliverArrival env s now _) endOfGroup
  · exact keeps_handleFetchError s

theorem keeps_run (env : DataEnv) (events : List (Nat × DataPlaneEvent)) (s : DataPlane) :
    s.Keeps (events.foldl (step env) s) := by
  induction events generalizing s with
  | nil => exact Keeps.rfl
  | cons event events ih => exact (keeps_step env s event).trans (ih _)

theorem sound_initial : ({} : DataPlane).tables.Sound where
  subgroups := Agrees.empty
  fetches := Agrees.empty
  accounts := Accounts.empty
  reported := rfl
  fresh := by
    intro streamId st h
    cases h

theorem sound_run {env : DataEnv} {events : List (Nat × DataPlaneEvent)}
    (hlive : (run env events).tables.Live) : (run env events).tables.Sound :=
  (keeps_run env events {} hlive).2 sound_initial

/-- A stream that is cleaned up is gone. -/
theorem cleanupStream_gone (env : DataEnv) (s : DataPlane) (now streamId : Nat) (clean : Bool)
    (resetCode : Nat) :
    (s.cleanupStream env now streamId clean resetCode).streams.get? streamId = none := by
  have htables := cleanupStream_tables env s now streamId clean resetCode
  have hstreams := congrArg (fun t : BindingTables => t.streams.get? streamId) htables
  rw [BindingTables.drop_streams, Dict.get?_erase, if_pos rfl] at hstreams
  exact hstreams

theorem finishStream_gone {env : DataEnv} {s : DataPlane} {now streamId : Nat}
    (hopen : (s.finishStream env now streamId).closeErr = none) :
    (s.finishStream env now streamId).streams.get? streamId = none := by
  cases hst : s.streams.get? streamId with
  | none =>
      rw [finishStream, hst]
      exact hst
  | some st =>
      rw [finishStream, hst] at hopen ⊢
      dsimp only at hopen ⊢
      split_ifs at hopen ⊢
      · exact absurd hopen (closeSession_closed s now _)
      · exact cleanupStream_gone env s now streamId true 0

/-- A FIN on a stream that the session still follows leaves nothing of it. -/
theorem onStreamData_gone {env : DataEnv} {s : DataPlane} {now streamId : Nat} {data : Bytes}
    (hopen : (s.onStreamData env now streamId data true).closeErr = none)
    (hfollowed : streamId ∈ s.streamTornDown.keys → s.streams.get? streamId = none) :
    (s.onStreamData env now streamId data true).streams.get? streamId = none := by
  unfold onStreamData at hopen ⊢
  split_ifs at hopen ⊢ with htorn hfin
  · exact hfollowed htorn
  · exact finishStream_gone hopen
  · exact absurd rfl hfin

/-! ## The property -/

/-- An event that ends a stream. -/
def endsStream (streamId : Nat) : DataPlaneEvent → Prop
  | .streamData id _ endStream => id = streamId ∧ endStream = true
  | .streamReset id _ => id = streamId
  | _ => False

/-- What a step of a run meets: the session stays open, the drain loop takes no turn for a stream
that has ended, and a FIN does not come on a stream that the release of its track tombstoned. -/
structure Meets (env : DataEnv) (s : DataPlane) (event : Nat × DataPlaneEvent) : Prop where
  opened : (s.step env event).closeErr = none
  followed : (s.step env event).strays = s.strays
  released : ∀ streamId data, event.2 = .streamData streamId data true →
    streamId ∈ s.streamTornDown.keys → s.streams.get? streamId = none

/-- A run whose steps all meet the condition. -/
def MeetsAll (env : DataEnv) : DataPlane → List (Nat × DataPlaneEvent) → Prop
  | _, [] => True
  | s, event :: events => s.Meets env event ∧ MeetsAll env (s.step env event) events

/-- The tables and the streams say the same, and each binding that is gone was reported once, or
was taken by a reopened stream. -/
structure Bijective (s : DataPlane) : Prop where
  subgroup : ∀ key streamId, s.subgroupStreamByKey.get? key = some streamId ↔
    ∃ st, s.streams.get? streamId = some st ∧ st.key = some (.subgroup key)
  fetch : ∀ requestId streamId, s.fetchStreamByRequest.get? requestId = some streamId ↔
    ∃ st, s.streams.get? streamId = some st ∧ st.key = some (.fetch requestId)
  reports : s.log.filterMap DataEvent.reported = s.history.filterMap BindingTables.endedKey
  accounts : ∀ streamId key, s.history.count (.taken streamId key) =
    s.history.count (.ended streamId key) + s.history.count (.lost streamId key) +
      if s.subgroupStreamByKey.get? key = some streamId then 1 else 0

/-- A stream's key, read as a key of one kind. -/
theorem readKey_eq_some {s : DataPlane} {β : Type} {read : StreamKey → Option β} {b : β}
    {key : StreamKey} (hread : ∀ held, read held = some b ↔ held = key) {streamId : Nat} :
    (s.tables.keyOf streamId).bind read = some b ↔
      ∃ st, s.streams.get? streamId = some st ∧ st.key = some key := by
  show (((s.streams.get? streamId).bind (·.key)).bind read) = some b ↔ _
  simp only [Option.bind_eq_some_iff, hread]
  constructor
  · rintro ⟨held, ⟨st, hst, hkey⟩, rfl⟩
    exact ⟨st, hst, hkey⟩
  · rintro ⟨st, hst, hkey⟩
    exact ⟨key, ⟨st, hst, hkey⟩, rfl⟩

theorem subgroupOf_eq_some {s : DataPlane} {streamId : Nat} {key : SubgroupKey} :
    s.tables.subgroupOf streamId = some key ↔
      ∃ st, s.streams.get? streamId = some st ∧ st.key = some (.subgroup key) :=
  readKey_eq_some fun held => by cases held <;> simp [StreamKey.subgroup?]

theorem fetchOf_eq_some {s : DataPlane} {streamId requestId : Nat} :
    s.tables.fetchOf streamId = some requestId ↔
      ∃ st, s.streams.get? streamId = some st ∧ st.key = some (.fetch requestId) :=
  readKey_eq_some fun held => by cases held <;> simp [StreamKey.fetch?]

theorem bijective_of_sound {s : DataPlane} (h : s.tables.Sound) : s.Bijective where
  subgroup := fun key streamId => (h.subgroups key streamId).trans subgroupOf_eq_some
  fetch := fun requestId streamId => (h.fetches requestId streamId).trans fetchOf_eq_some
  reports := h.reported
  accounts := by
    intro streamId key
    have hcount := h.accounts streamId key
    have hheld : s.subgroupStreamByKey.get? key = some streamId ↔
        s.tables.subgroupOf streamId = some key := h.subgroups key streamId
    simp only [hheld]
    exact hcount

theorem live_of_meetsAll {env : DataEnv} {s : DataPlane} {events : List (Nat × DataPlaneEvent)}
    (hlive : s.tables.Live) (h : MeetsAll env s events) :
    (events.foldl (step env) s).tables.Live := by
  induction events generalizing s with
  | nil => exact hlive
  | cons event events ih =>
      apply ih _ h.2
      exact ⟨h.1.opened, h.1.followed.trans hlive.2⟩

theorem meetsAll_append {env : DataEnv} {s : DataPlane} {events : List (Nat × DataPlaneEvent)}
    {last : Nat × DataPlaneEvent} (h : MeetsAll env s (events ++ [last])) :
    MeetsAll env s events ∧ (events.foldl (step env) s).Meets env last := by
  induction events generalizing s with
  | nil => exact ⟨trivial, h.1⟩
  | cons event events ih =>
      have hrest := ih h.2
      exact ⟨⟨h.1, hrest.1⟩, hrest.2⟩

end DataPlane

open DataPlane

/-- **The bindings of a session's streams are a bijection, and no end is lost or reported twice**,
in every state of a run whose steps meet the condition. -/
theorem stream_bindings (env : DataEnv) (events : List (Nat × DataPlaneEvent))
    (h : MeetsAll env {} events) :
    (run env events).Bijective ∧
      ∀ earlier last streamId, events = earlier ++ [last] → endsStream streamId last.2 →
        (run env events).streams.get? streamId = none := by
  have hinitial : ({} : DataPlane).tables.Live := ⟨rfl, rfl⟩
  constructor
  · exact bijective_of_sound (sound_run (live_of_meetsAll hinitial h))
  · rintro earlier ⟨now, last⟩ streamId rfl hends
    have hmeets := (meetsAll_append h).2
    have hrun : run env (earlier ++ [(now, last)]) = (run env earlier).step env (now, last) := by
      rw [run, List.foldl_append]
      rfl
    rw [hrun]
    cases last with
    | streamData id data endStream =>
        obtain ⟨rfl, rfl⟩ := hends
        have hopen := hmeets.opened
        have hreleased := hmeets.released id data rfl
        have hbefore : (run env earlier).closeErr = none := by
          exact (live_of_meetsAll hinitial (meetsAll_append h).1).1
        have hstep : (run env earlier).step env (now, .streamData id data true) =
            (run env earlier).onStreamData env now id data true := by
          simp [step, hbefore]
        have hopen' : ((run env earlier).step env (now, .streamData id data true)).closeErr =
            none := hopen
        rw [hstep] at hopen' ⊢
        exact onStreamData_gone hopen' hreleased
    | streamReset id errorCode =>
        obtain rfl := hends
        exact cleanupStream_gone env (run env earlier) now id false errorCode
    | _ => exact absurd hends id

/-! ### Where a callback ends the stream it is called for -/

/-- A session whose track 1 has a handler that cancels it at its first object. -/
def strayEnv : DataEnv where
  prof := profileFor .d18
  maxObjectBytes := 64 * 1024 * 1024
  needed := fun _ chain => chain.length + 1
  acts := fun log =>
    match log.getLast? with
    | some (.object _ arrival) => if arrival.trackAlias = 1 then [.cancelMalformed 1] else []
    | _ => []

/-- A stream of track 2, then one of track 1 with two objects in a chunk.  The second one, read
as the head of a stream, is a header of the first stream's subgroup. -/
def strayEvents : List (Nat × DataPlaneEvent) :=
  [(0, .control
      { trackAliases := (Dict.empty.insert 1 0).insert 2 2
        objectHandlers := (Dict.empty.insert 1 0).insert 2 0 }),
    (0, .streamData 7 [0x10, 2, 0, 0x80, 0, 1, 9] false),
    (0, .streamData 3 [0x10, 1, 0, 0x80, 0, 1, 9, 0x10, 2, 0, 0x80] false)]

/-- The session is open, and a subgroup is bound to a stream that has ended, after it was taken
from one that is open. -/
theorem stray_binding :
    (run strayEnv strayEvents).closeErr = none ∧
      (run strayEnv strayEvents).subgroupStreamByKey.get? ⟨2, 0, 0⟩ = some 3 ∧
      (run strayEnv strayEvents).streams.keys = [7] ∧ ¬ (run strayEnv strayEvents).Bijective := by
  have hbound : (run strayEnv strayEvents).subgroupStreamByKey.get? ⟨2, 0, 0⟩ = some 3 := by
    decide +kernel
  have hkeys : (run strayEnv strayEvents).streams.keys = [7] := by decide +kernel
  refine ⟨by decide +kernel, hbound, hkeys, fun h => ?_⟩
  obtain ⟨st, hst, -⟩ := (h.subgroup ⟨2, 0, 0⟩ 3).mp hbound
  have hopen : 3 ∈ (run strayEnv strayEvents).streams.keys :=
    Dict.mem_keys.mpr (by simp [hst])
  rw [hkeys] at hopen
  exact absurd hopen (by decide)

/-- A subgroup that is reopened: the reset of its first stream, and the FIN of its second. -/
def reopenedEvents : List (Nat × DataPlaneEvent) :=
  [(0, .streamData 3 [0x10, 2, 0, 0x80, 0, 1, 9] false),
    (0, .streamData 7 [0x10, 2, 0, 0x80, 1, 1, 9] false),
    (0, .streamReset 3 1),
    (0, .streamData 7 [] true)]

theorem stream_bindings_reopened :
    (run strayEnv reopenedEvents).Bijective ∧
      (run strayEnv reopenedEvents).history =
        [.taken 3 ⟨2, 0, 0⟩, .lost 3 ⟨2, 0, 0⟩, .taken 7 ⟨2, 0, 0⟩, .ended 7 ⟨2, 0, 0⟩] := by
  constructor
  · apply (stream_bindings strayEnv reopenedEvents _).1
    refine ⟨⟨by decide +kernel, by decide +kernel, ?_⟩, ⟨by decide +kernel, by decide +kernel, ?_⟩,
      ⟨by decide +kernel, by decide +kernel, ?_⟩, ⟨by decide +kernel, by decide +kernel, ?_⟩,
      trivial⟩
    all_goals
      intro streamId data heq
      cases heq
    intro htorn
    exact absurd htorn (by decide +kernel)
  · decide +kernel

end AioMoqt.Session
