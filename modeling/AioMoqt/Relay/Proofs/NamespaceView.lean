import AioMoqt.Relay.Proofs.Namespaces

/-!
# The view of a prefix subscriber

NAMESPACE_DONE follows NAMESPACE in every run; the last of the two says whether the namespace
exists where no event takes one of its two supports away and leaves the other.
-/

namespace AioMoqt.Relay

open AioMoqt.Lib AioMoqt.Lib.BigEndian

namespace NsTables

variable {t : NsTables}

/-! ## In every run -/

theorem Fresh.congr (h : t.Fresh) {t' : NsTables}
    (hrequests : ∀ key ∈ t'.announceRequests.keys, key ∈ t.announceRequests.keys)
    (hsubs : t'.nsSubs.Sublist t.nsSubs) (hsent : t'.sent = t.sent)
    (hopened : t'.opened = t.opened) : t'.Fresh where
  requests key hkey := hopened ▸ h.requests key (hrequests key hkey)
  subs sub hsub := hopened ▸ h.subs sub (hsubs.subset hsub)
  notices entry hentry := hopened ▸ h.notices entry (hsent ▸ hentry)
  distinct := h.distinct.sublist (hsubs.map _)

/-- What holds in every run: the subscribers of a namespace that is announced were told so, and
NAMESPACE_DONE follows NAMESPACE. -/
structure Sound (t : NsTables) : Prop where
  fresh : t.Fresh
  announced : ∀ sub ns, t.Watches sub ns → ns ∈ t.announced.keys → t.told sub ns = some .ns
  paired : Paired .ns .nsDone t.sent

theorem Sound.congr (h : t.Sound) {t' : NsTables} (hfresh : t'.Fresh)
    (hwatches : ∀ sub ns, t'.Watches sub ns → t.Watches sub ns)
    (hannounced : ∀ ns ∈ t'.announced.keys, ns ∈ t.announced.keys) (hsent : t'.sent = t.sent) :
    t'.Sound where
  fresh := hfresh
  announced sub ns hsub hns := by
    have htold := h.announced sub ns (hwatches sub ns hsub) (hannounced ns hns)
    unfold told at *
    rwa [hsent]
  paired := hsent ▸ h.paired

/-- NAMESPACE for a namespace that may be new. -/
theorem Sound.announce (h : t.Sound) {t' : NsTables} (hfresh : t'.Fresh) {ns : NsTuple}
    (hwatches : ∀ sub ns, t'.Watches sub ns → t.Watches sub ns)
    (hannounced : ∀ ns' ∈ t'.announced.keys, ns' ≠ ns → ns' ∈ t.announced.keys)
    (hsent : t'.sent = t.sent) : (t'.announceNamespace ns).Sound where
  fresh := hfresh.notify ns .ns
  announced sub ns' hsub hns' := by
    have hsub' : t'.Watches sub ns' := hsub
    unfold announceNamespace
    rw [told_notify hfresh hsub']
    by_cases hsame : ns' = ns
    · rw [if_pos hsame]
    · rw [if_neg hsame]
      have htold := h.announced sub ns' (hwatches sub ns' hsub') (hannounced ns' hns' hsame)
      unfold told at *
      rwa [hsent]
  paired := by
    have hpaired : Paired .ns .nsDone t'.sent := hsent ▸ h.paired
    refine hpaired.append fun entry hentry => ?_
    obtain ⟨sub, -, rfl⟩ := List.mem_map.mp hentry
    exact fun hdone => by cases hdone

/-- NAMESPACE_DONE for a namespace that was announced. -/
theorem Sound.retract (h : t.Sound) {ns : NsTuple} (hns : ns ∈ t.announced.keys) :
    ({ t with announced := t.announced.erase ns }.retractNamespace ns).Sound := by
  have hfresh : Fresh { t with announced := t.announced.erase ns } :=
    h.fresh.congr (fun _ hkey => hkey) (List.Sublist.refl _) rfl rfl
  refine ⟨hfresh.notify ns .nsDone, fun sub ns' hsub hns' => ?_, ?_⟩
  · have hsub' : Watches { t with announced := t.announced.erase ns } sub ns' := hsub
    have hmem : (t.announced.erase ns).get? ns' ≠ none := Dict.mem_keys.mp hns'
    rw [Dict.get?_erase] at hmem
    have hne : ns' ≠ ns := by
      rintro rfl
      exact hmem (if_pos rfl)
    rw [if_neg hne] at hmem
    unfold retractNamespace
    rw [told_notify hfresh hsub', if_neg hne]
    exact h.announced sub ns' hsub (Dict.mem_keys.mpr hmem)
  · refine h.paired.append_nodup (round_nodup h.fresh ns .nsDone) fun entry hentry => ?_
    obtain ⟨sub, hsub, rfl⟩ := List.mem_map.mp hentry
    obtain ⟨hmem, hkeep⟩ := List.mem_filter.mp hsub
    obtain ⟨hcovers, hlive⟩ := Bool.and_eq_true_iff.mp hkeep
    exact h.announced sub ns ⟨hmem, hlive, hcovers⟩ hns

theorem Sound.putHolders (h : t.Sound) {ns : NsTuple} (hns : ns ∈ t.announced.keys)
    (holders : Dict Nat Nat) : (t.putHolders ns holders).Sound := by
  unfold NsTables.putHolders
  split
  · exact h.retract hns
  · refine h.congr (h.fresh.congr (fun _ hkey => hkey) (List.Sublist.refl _) rfl rfl)
      (fun _ _ hsub => hsub) (fun ns' hns' => ?_) rfl
    rw [Dict.keys_insert, if_pos hns] at hns'
    exact hns'

theorem mem_keys_of_get? {κ α : Type} [DecidableEq κ] {d : Dict κ α} {k : κ} {v : α}
    (h : d.get? k = some v) : k ∈ d.keys := by
  rw [Dict.mem_keys, h]
  exact Option.some_ne_none v

theorem Sound.releaseHold (h : t.Sound) (session : Nat) (ns : NsTuple) :
    (t.releaseHold session ns).Sound := by
  unfold NsTables.releaseHold
  split
  · exact h
  case h_2 holders hholders =>
    split
    · exact h
    · exact h.putHolders (mem_keys_of_get? hholders) _

theorem Sound.withdraw (h : t.Sound) (session : Nat) (requestId : Option Nat)
    (named : Option NsTuple) : (t.withdrawNamespace session requestId named).Sound := by
  unfold withdrawNamespace
  split
  · exact h
  · split
    · exact h
    · refine Sound.releaseHold ?_ session _
      exact h.congr (h.fresh.congr (fun _ hkey => (Dict.mem_keys_erase.mp hkey).2)
        (List.Sublist.refl _) rfl rfl)
        (fun _ _ hsub => hsub) (fun _ hns => hns) rfl

theorem Fresh.opens (h : t.Fresh) (request : Nat × Nat) :
    Fresh { t with opened := request :: t.opened } where
  requests key hkey := List.mem_cons_of_mem _ (h.requests key hkey)
  subs sub hsub := List.mem_cons_of_mem _ (h.subs sub hsub)
  notices entry hentry := List.mem_cons_of_mem _ (h.notices entry hentry)
  distinct := h.distinct

/-- A request enters the tables as it is opened. -/
theorem Fresh.requested (h : t.Fresh) (request : Nat × Nat) (ns : NsTuple) :
    Fresh { t with
      announceRequests := t.announceRequests.insert request ns
      opened := request :: t.opened } := by
  have hopens := h.opens request
  refine ⟨fun key hkey => ?_, hopens.subs, hopens.notices, hopens.distinct⟩
  have hkey' : key ∈ (t.announceRequests.insert request ns).keys := hkey
  rw [Dict.mem_keys, Dict.get?_insert] at hkey'
  by_cases hsame : key = request
  · exact hsame ▸ List.mem_cons_self
  · rw [if_neg hsame] at hkey'
    exact hopens.requests key (Dict.mem_keys.mpr hkey')

theorem Sound.publishNamespace (h : t.Sound) (session requestId : Nat) (ns : NsTuple) :
    (t.onPublishNamespace session requestId ns).Sound := by
  refine h.announce ?_ (fun _ _ hsub => hsub) (fun ns' hns' hne => ?_) rfl
  · exact (h.fresh.requested (session, requestId) ns).congr (fun _ hkey => hkey)
      (List.Sublist.refl _) rfl rfl
  · have hmem : ns' ∈ (t.announced.insert ns _).keys := hns'
    rw [Dict.mem_keys, Dict.get?_insert, if_neg hne] at hmem
    exact Dict.mem_keys.mpr hmem

theorem Sound.register (h : t.Sound) (session : Nat) (key : NsTuple × Bytes)
    (track : RegisteredTrack) : (t.registerTrack session key track).Sound := by
  refine h.announce ?_ (fun _ _ hsub => hsub) (fun _ hns _ => hns) rfl
  exact h.fresh.congr (fun _ hkey => hkey) (List.Sublist.refl _) rfl rfl

theorem Sound.dropTrack (h : t.Sound) (key : NsTuple × Bytes) : (t.dropTrack key).Sound :=
  h.congr (h.fresh.congr (fun _ hkey => hkey) (List.Sublist.refl _) rfl rfl)
    (fun _ _ hsub => hsub) (fun _ hns => hns) rfl

theorem Sound.publish (h : t.Sound) (session : Nat) (key : NsTuple × Bytes) (mandatory : Bool) :
    (t.onPublish session key mandatory).Sound := by
  unfold onPublish
  split
  · exact h
  · split
    · exact h.register session key _
    · split
      · exact h
      · split
        · exact (h.dropTrack key).register session key _
        · exact h.register session key _

/-- The notices of a new subscriber are the first on its request. -/
theorem told_new (h : t.Fresh) {session requestId : Nat} (hnew : (session, requestId) ∉ t.opened)
    (suffix : NsTuple) : lastSaid t.sent (session, requestId, suffix) = none := by
  have hnone : ∀ log : List (NoticeKey × NsNotice),
      (∀ entry ∈ log, (entry.1.1, entry.1.2.1) ∈ t.opened) →
      lastSaid log (session, requestId, suffix) = none := by
    intro log hlog
    induction log with
    | nil => rfl
    | cons entry log ih =>
        obtain ⟨key, notice⟩ := entry
        have hne : key ≠ (session, requestId, suffix) := by
          rintro rfl
          exact hnew (hlog _ List.mem_cons_self)
        rw [lastSaid, ih fun entry hentry => hlog entry (List.mem_cons_of_mem _ hentry),
          if_neg hne]
        rfl
  exact hnone t.sent h.notices

theorem mem_knownNamespaces {nsPrefix ns : NsTuple} :
    ns ∈ t.knownNamespaces nsPrefix ↔
      (ns ∈ t.announced.keys ∨ ∃ key ∈ t.tracks.keys, key.1 = ns) ∧
        prefixCovers nsPrefix ns = true := by
  unfold knownNamespaces
  rw [List.mem_filter, List.mem_eraseDups, List.mem_append, List.mem_map]

/-- What a subscriber, new or old, was told after a SUBSCRIBE_NAMESPACE. -/
theorem told_subscribe (h : t.Fresh) {session requestId : Nat}
    (hnew : (session, requestId) ∉ t.opened) {nsPrefix : NsTuple} {sub : NsSub} {ns : NsTuple}
    (hsub : (t.onSubscribeNamespace session requestId nsPrefix).Watches sub ns) :
    sub ∈ t.nsSubs ∧ (t.onSubscribeNamespace session requestId nsPrefix).told sub ns =
        t.told sub ns ∨
      sub = ⟨session, nsPrefix, requestId⟩ ∧
        (t.onSubscribeNamespace session requestId nsPrefix).told sub ns =
          if ns ∈ t.knownNamespaces nsPrefix then some .ns else none := by
  obtain ⟨hmem, -, hcovers⟩ := hsub
  have hbatch : ∀ key, lastSaid ((t.knownNamespaces nsPrefix).map fun ns =>
      ((⟨session, nsPrefix, requestId⟩ : NsSub).key ns, NsNotice.ns)) key =
      if key ∈ (t.knownNamespaces nsPrefix).map (NsSub.key ⟨session, nsPrefix, requestId⟩) then
        some .ns else none := by
    intro key
    refine (lastSaid_const (v := .ns) ?_ key).trans ?_
    · intro entry hentry
      obtain ⟨ns', -, rfl⟩ := List.mem_map.mp hentry
      rfl
    · rw [List.map_map]
      by_cases hkey : key ∈ (t.knownNamespaces nsPrefix).map
          (NsSub.key ⟨session, nsPrefix, requestId⟩)
      · rw [if_pos hkey]
        exact if_pos hkey
      · rw [if_neg hkey]
        exact if_neg hkey
  have hsent : (t.onSubscribeNamespace session requestId nsPrefix).told sub ns =
      (lastSaid ((t.knownNamespaces nsPrefix).map fun ns =>
        ((⟨session, nsPrefix, requestId⟩ : NsSub).key ns, NsNotice.ns)) (sub.key ns)).or
          (t.told sub ns) := lastSaid_append _ _ _
  rcases List.mem_append.mp hmem with hold | hthis
  · refine .inl ⟨hold, ?_⟩
    rw [hsent, hbatch, if_neg, Option.none_or]
    intro hkey
    obtain ⟨ns', -, hkey⟩ := List.mem_map.mp hkey
    obtain ⟨hsession, hrest⟩ := Prod.ext_iff.mp hkey
    have hrequest := (Prod.ext_iff.mp hrest).1
    refine hnew ?_
    have hopened := h.subs sub hold
    rwa [← show session = sub.session from hsession,
      ← show requestId = sub.requestId from hrequest] at hopened
  · obtain rfl := List.mem_singleton.mp hthis
    refine .inr ⟨rfl, ?_⟩
    have hnone : t.told ⟨session, nsPrefix, requestId⟩ ns = none := told_new h hnew _
    rw [hsent, hbatch, hnone, Option.or_none]
    refine if_congr ?_ rfl rfl
    constructor
    · intro hkey
      obtain ⟨ns', hns', hkey⟩ := List.mem_map.mp hkey
      have hsuffix := (Prod.ext_iff.mp (Prod.ext_iff.mp hkey).2).2
      rwa [← drop_inj (mem_knownNamespaces.mp hns').2 hcovers hsuffix]
    · exact fun hns => List.mem_map_of_mem hns

theorem Sound.subscribe (h : t.Sound) {session requestId : Nat}
    (hnew : (session, requestId) ∉ t.opened) (nsPrefix : NsTuple) :
    (t.onSubscribeNamespace session requestId nsPrefix).Sound := by
  have hopens := h.fresh.opens (session, requestId)
  refine ⟨⟨hopens.requests, fun sub hsub => ?_, fun entry hentry => ?_, ?_⟩,
    fun sub ns hsub hns => ?_, ?_⟩
  · rcases List.mem_append.mp hsub with hold | hthis
    · exact hopens.subs sub hold
    · rw [List.mem_singleton.mp hthis]
      exact List.mem_cons_self
  · rcases List.mem_append.mp hentry with hold | hthis
    · exact hopens.notices entry hold
    · obtain ⟨ns, -, rfl⟩ := List.mem_map.mp hthis
      exact List.mem_cons_self
  · show ((t.nsSubs ++ [(⟨session, nsPrefix, requestId⟩ : NsSub)]).map fun sub =>
      (sub.session, sub.requestId)).Nodup
    rw [List.map_append, List.map_singleton, List.nodup_append]
    refine ⟨h.fresh.distinct, List.nodup_singleton _, fun key hkey key' hkey' => ?_⟩
    obtain ⟨sub, hsub, rfl⟩ := List.mem_map.mp hkey
    rw [List.mem_singleton.mp hkey']
    exact fun heq => hnew (heq ▸ h.fresh.subs sub hsub)
  · rcases told_subscribe h.fresh hnew hsub with ⟨hold, htold⟩ | ⟨rfl, htold⟩
    · rw [htold]
      exact h.announced sub ns ⟨hold, hsub.2⟩ hns
    · have hknown : ns ∈ t.knownNamespaces nsPrefix :=
        mem_knownNamespaces.mpr ⟨.inl hns, hsub.2.2⟩
      rw [htold, if_pos hknown]
  · refine h.paired.append fun entry hentry => ?_
    obtain ⟨ns, -, rfl⟩ := List.mem_map.mp hentry
    exact fun hdone => by cases hdone

theorem Sound.forgetHolder (h : t.Sound) (session : Nat) (ns : NsTuple) :
    (t.forgetHolder session ns).Sound := by
  unfold NsTables.forgetHolder
  split
  · exact h
  case h_2 holders hholders =>
    split
    · exact h.putHolders (mem_keys_of_get? hholders) _
    · exact h

theorem Sound.forgetHolders (h : t.Sound) (session : Nat) (nss : List NsTuple) :
    (t.forgetHolders session nss).Sound := by
  induction nss generalizing t with
  | nil => exact h
  | cons ns nss ih => exact ih (h.forgetHolder session ns)

/-- The tables of `_forget_session` before its loop. -/
def forgetting (t : NsTables) (session : Nat) : NsTables :=
  { t with
    nsSubs := t.nsSubs.filter fun sub => sub.session ≠ session
    announceRequests := t.announceRequests.filterKeys fun key => key.1 ≠ session }

theorem forgetSession_eq (t : NsTables) (session : Nat) :
    t.forgetSession session =
      { (t.forgetting session).forgetHolders session t.announced.keys with
        tracks := t.tracks.filter fun _ track => !ownedBy session track } := by
  have htracks := ((t.forgetting session).forgetHolders_rest session t.announced.keys).2.1
  show { (t.forgetting session).forgetHolders session t.announced.keys with
    tracks := ((t.forgetting session).forgetHolders session t.announced.keys).tracks.filter
      fun _ track => !ownedBy session track } = _
  rw [htracks]
  rfl

theorem Sound.forgetting (h : t.Sound) (session : Nat) : (t.forgetting session).Sound := by
  refine h.congr (h.fresh.congr (fun key hkey => ?_) List.filter_sublist rfl rfl)
    (fun sub ns hsub => ⟨List.mem_of_mem_filter hsub.1, hsub.2⟩) (fun _ hns => hns) rfl
  have hkey' : key ∈ (t.announceRequests.filterKeys fun key => key.1 ≠ session).keys := hkey
  rw [Dict.mem_keys, Dict.get?_filterKeys] at hkey'
  split at hkey'
  · exact Dict.mem_keys.mpr hkey'
  · exact absurd rfl hkey'

theorem Sound.forget (h : t.Sound) (session : Nat) : (t.forgetSession session).Sound := by
  have hafter := (h.forgetting session).forgetHolders session t.announced.keys
  rw [forgetSession_eq]
  exact hafter.congr (hafter.fresh.congr (fun _ hkey => hkey) (List.Sublist.refl _) rfl rfl)
    (fun _ _ hsub => hsub) (fun _ hns => hns) rfl

/-- **One event** keeps what holds in every run. -/
theorem Sound.step (h : t.Sound) {e : NsEvent} (henabled : t.Enabled e) : (t.step e).Sound := by
  have hkeep : ∀ tracks, Sound { t with tracks } := fun tracks =>
    h.congr (h.fresh.congr (fun _ hkey => hkey) (List.Sublist.refl _) rfl rfl)
      (fun _ _ hsub => hsub) (fun _ hns => hns) rfl
  cases e with
  | publishNamespace session requestId ns => exact h.publishNamespace session requestId ns
  | withdraw session requestId named => exact h.withdraw session requestId named
  | publish session key mandatory => exact h.publish session key mandatory
  | trackChanges key track => exact hkeep _
  | trackEnds key => exact hkeep _
  | subscribeNamespace session requestId nsPrefix => exact h.subscribe henabled nsPrefix
  | cancelSubscriber session requestId =>
      exact h.congr (h.fresh.congr (fun _ hkey => hkey) List.filter_sublist rfl rfl)
        (fun sub ns hsub => ⟨List.mem_of_mem_filter hsub.1, hsub.2⟩) (fun _ hns => hns) rfl
  | closes session =>
      refine h.congr (h.fresh.congr (fun _ hkey => hkey) (List.Sublist.refl _) rfl rfl)
        (fun sub ns hsub => ⟨hsub.1, ?_, hsub.2.2⟩) (fun _ hns => hns) rfl
      have hlive : sub.session ∉ session :: t.closed := of_decide_eq_true hsub.2.1
      exact decide_eq_true fun hmem => hlive (List.mem_cons_of_mem _ hmem)
  | forget session => exact h.forget session

/-! ## Where no event breaks it -/

/-- A namespace has a registered track. -/
def Tracked (t : NsTables) (ns : NsTuple) : Prop := ∃ entry ∈ t.tracks.entries, entry.1.1 = ns

/-- A namespace that exists: announced by some session, or with a registered track. -/
def Exists (t : NsTables) (ns : NsTuple) : Prop := ns ∈ t.announced.keys ∨ t.Tracked ns

/-- Some live subscriber has a prefix of the namespace. -/
def Observed (t : NsTables) (ns : NsTuple) : Prop := ∃ sub, t.Watches sub ns

/-- A session is the only one that announces a namespace. -/
def OnlyHolder (t : NsTables) (session : Nat) (ns : NsTuple) : Prop :=
  ∃ holders, t.announced.get? ns = some holders ∧ session ∈ holders.keys ∧
    ∀ session' ∈ holders.keys, session' = session

/-- An event withdraws the last announcement of a namespace. -/
def Withdraws (t : NsTables) : NsEvent → NsTuple → Prop
  | .withdraw session requestId named, ns => ∃ withdrawn,
      t.withdrawnRequest session requestId named = some withdrawn ∧
        t.announceRequests.get? (session, withdrawn) = some ns ∧ t.OnlyHolder session ns ∧
          t.held ns session = some 1
  | .forget session, ns => t.OnlyHolder session ns
  | _, _ => False

/-- An event drops a track. -/
def Drops (t : NsTables) : NsEvent → NsTuple × Bytes → RegisteredTrack → Prop
  | .trackEnds key, key', _ => key' = key
  | .publishNamespace session _ ns, key, track => t.superseded ns session key track = true
  | .forget session, _, track => ownedBy session track = true
  | _, _, _ => False

/-- An event announces a namespace. -/
def Announces : NsEvent → NsTuple → Prop
  | .publishNamespace _ _ ns, ns' => ns' = ns
  | _, _ => False

/-- A track of the namespace stays. -/
def Remains (t : NsTables) (e : NsEvent) (ns : NsTuple) : Prop :=
  ∃ entry ∈ t.tracks.entries, entry.1.1 = ns ∧ ¬ t.Drops e entry.1 entry.2

/-- An event meets the condition: of a namespace that somebody watches it does not withdraw the
last announcement while a track stays, nor drop the last track where nobody announces it. -/
def Meets (t : NsTables) (e : NsEvent) : Prop :=
  ∀ ns, t.Observed ns → (t.Withdraws e ns → ¬ t.Remains e ns) ∧
    (ns ∉ t.announced.keys → t.Tracked ns → Announces e ns ∨ t.Remains e ns)

/-- Every live subscriber was last told NAMESPACE of exactly the namespaces of a kind. -/
def Shown (t : NsTables) (known : NsTuple → Prop) : Prop :=
  ∀ sub ns, t.Watches sub ns → (t.told sub ns = some .ns ↔ known ns)

theorem Shown.congr {known known' : NsTuple → Prop} (h : t.Shown known) {t' : NsTables}
    (hwatches : ∀ sub ns, t'.Watches sub ns → t.Watches sub ns) (hsent : t'.sent = t.sent)
    (hknown : ∀ ns, t'.Observed ns → (known ns ↔ known' ns)) : t'.Shown known' := by
  intro sub ns hsub
  have hshown := h sub ns (hwatches sub ns hsub)
  unfold told at *
  rw [hsent, hshown, hknown ns ⟨sub, hsub⟩]

/-- A round of notices settles its namespace. -/
theorem Shown.notify {known : NsTuple → Prop} (h : t.Shown known) (hfresh : t.Fresh)
    (ns : NsTuple) (notice : NsNotice) {known' : NsTuple → Prop}
    (hns : t.Observed ns → (notice = .ns ↔ known' ns))
    (hknown : ∀ ns', ns' ≠ ns → (known ns' ↔ known' ns')) : (t.notify ns notice).Shown known' := by
  intro sub ns' hsub
  have hsub' : t.Watches sub ns' := hsub
  rw [told_notify hfresh hsub']
  by_cases hsame : ns' = ns
  · subst hsame
    rw [if_pos rfl, Option.some_inj]
    exact hns ⟨sub, hsub'⟩
  · rw [if_neg hsame, h sub ns' hsub']
    exact hknown ns' hsame

/-- Giving holders up keeps the view where the last of them leaves nothing behind. -/
theorem Shown.putHolders {tracked : NsTuple → Prop} {ns : NsTuple} {holders : Dict Nat Nat}
    (h : t.Shown fun ns => ns ∈ t.announced.keys ∨ tracked ns) (hfresh : t.Fresh)
    (hns : ns ∈ t.announced.keys)
    (hlast : t.Observed ns → holders.keys = [] → ¬ tracked ns) :
    (t.putHolders ns holders).Shown fun ns' =>
      ns' ∈ (t.putHolders ns holders).announced.keys ∨ tracked ns' := by
  unfold NsTables.putHolders
  split
  case isTrue hnone =>
    have hfresh' : Fresh { t with announced := t.announced.erase ns } :=
      hfresh.congr (fun _ hkey => hkey) (List.Sublist.refl _) rfl rfl
    have hshown : Shown { t with announced := t.announced.erase ns }
        fun ns => ns ∈ t.announced.keys ∨ tracked ns := h
    refine hshown.notify hfresh' ns .nsDone (fun hobserved => ?_) fun ns' hne => ?_
    · refine ⟨fun hdone => (by cases hdone), fun hknown => ?_⟩
      have hgone : ns ∉ (t.announced.erase ns).keys := fun hmem =>
        Dict.mem_keys.mp hmem (by rw [Dict.get?_erase, if_pos rfl])
      exact absurd (hknown.resolve_left hgone) (hlast hobserved hnone)
    · refine or_congr_left ?_
      show _ ↔ ns' ∈ (t.announced.erase ns).keys
      rw [Dict.mem_keys, Dict.mem_keys, Dict.get?_erase, if_neg hne]
  case isFalse =>
    refine h.congr (fun _ _ hsub => hsub) rfl fun ns' _ => or_congr_left ?_
    show _ ↔ ns' ∈ (t.announced.insert ns holders).keys
    rw [Dict.keys_insert, if_pos hns]

/-- Nobody is left where the only holder goes. -/
theorem onlyHolder_of_erased {session : Nat} {ns : NsTuple} {holders : Dict Nat Nat}
    (hget : t.announced.get? ns = some holders) (hmem : session ∈ holders.keys)
    (hnone : (holders.erase session).keys = []) : t.OnlyHolder session ns := by
  refine ⟨holders, hget, hmem, fun session' hmem' => ?_⟩
  by_contra hne
  have hleft : session' ∈ (holders.erase session).keys := by
    rw [Dict.mem_keys, Dict.get?_erase, if_neg hne]
    exact Dict.mem_keys.mp hmem'
  rw [hnone] at hleft
  exact List.not_mem_nil hleft

/-! ### Events -/

theorem tracked_insert (t : NsTables) (key : NsTuple × Bytes) (track : RegisteredTrack)
    (ns : NsTuple) : Tracked { t with tracks := t.tracks.insert key track } ns ↔
      key.1 = ns ∨ t.Tracked ns := by
  constructor
  · rintro ⟨⟨key', track'⟩, hmem, hns⟩
    rcases Dict.mem_entries_insert.mp hmem with ⟨rfl, -⟩ | ⟨-, hold⟩
    · exact .inl hns
    · exact .inr ⟨_, hold, hns⟩
  · rintro (hns | ⟨⟨key', track'⟩, hold, hns⟩)
    · exact ⟨(key, track), Dict.mem_entries_insert.mpr (.inl ⟨rfl, rfl⟩), hns⟩
    · by_cases hsame : key' = key
      · exact ⟨(key, track), Dict.mem_entries_insert.mpr (.inl ⟨rfl, rfl⟩), hsame ▸ hns⟩
      · exact ⟨(key', track'), Dict.mem_entries_insert.mpr (.inr ⟨hsame, hold⟩), hns⟩

/-- The tracks that an event leaves are those that remain. -/
theorem tracked_filter (t : NsTables) {e : NsEvent}
    (keep : NsTuple × Bytes → RegisteredTrack → Bool)
    (hkeep : ∀ key track, keep key track = true ↔ ¬ t.Drops e key track) (ns : NsTuple) :
    Tracked { t with tracks := t.tracks.filter keep } ns ↔ t.Remains e ns := by
  constructor
  · rintro ⟨entry, hmem, hns⟩
    obtain ⟨hold, hkept⟩ := List.mem_filter.mp hmem
    exact ⟨entry, hold, hns, (hkeep _ _).mp hkept⟩
  · rintro ⟨entry, hold, hns, hkept⟩
    exact ⟨entry, List.mem_filter.mpr ⟨hold, (hkeep _ _).mpr hkept⟩, hns⟩

theorem Remains.tracked {e : NsEvent} {ns : NsTuple} (h : t.Remains e ns) : t.Tracked ns := by
  obtain ⟨entry, hmem, hns, -⟩ := h
  exact ⟨entry, hmem, hns⟩

/-- What remains of the namespaces that nobody announces anew. -/
theorem Meets.exists_iff {e : NsEvent} (h : t.Meets e) {ns : NsTuple} (hobserved : t.Observed ns)
    (hannounces : ¬ Announces e ns) :
    t.Exists ns ↔ ns ∈ t.announced.keys ∨ t.Remains e ns := by
  constructor
  · rintro (hannounced | htracked)
    · exact .inl hannounced
    · by_cases hmem : ns ∈ t.announced.keys
      · exact .inl hmem
      · exact .inr (((h ns hobserved).2 hmem htracked).resolve_left hannounces)
  · exact fun hleft => hleft.imp_right Remains.tracked

theorem shown_publishNamespace (h : t.Shown t.Exists) (hsound : t.Sound) {session requestId : Nat}
    {ns : NsTuple} (hmeets : t.Meets (.publishNamespace session requestId ns)) :
    (t.onPublishNamespace session requestId ns).Shown
      (t.onPublishNamespace session requestId ns).Exists := by
  generalize hbefore : { (t.supersedeNamespace ns session).hold ns session with
    announceRequests := t.announceRequests.insert (session, requestId) ns
    opened := (session, requestId) :: t.opened } = before
  have hafter : t.onPublishNamespace session requestId ns = before.announceNamespace ns := by
    subst hbefore
    rfl
  have hfields : before.nsSubs = t.nsSubs ∧ before.closed = t.closed ∧ before.sent = t.sent ∧
      before.tracks = t.tracks.filter (fun key track => !t.superseded ns session key track) ∧
      ∀ ns', ns' ∈ before.announced.keys ↔ ns' = ns ∨ ns' ∈ t.announced.keys := by
    subst hbefore
    refine ⟨rfl, rfl, rfl, rfl, fun ns' => ?_⟩
    show ns' ∈ (t.announced.insert ns _).keys ↔ _
    rw [Dict.mem_keys, Dict.mem_keys, Dict.get?_insert]
    by_cases hsame : ns' = ns
    · rw [if_pos hsame]
      exact ⟨fun _ => .inl hsame, fun _ => Option.some_ne_none _⟩
    · rw [if_neg hsame, or_iff_right hsame]
  obtain ⟨hsubs, hclosed, hsent, htracks, hannounced⟩ := hfields
  have hwatches : ∀ sub ns', before.Watches sub ns' ↔ t.Watches sub ns' := fun sub ns' => by
    unfold Watches sessionLive
    rw [hsubs, hclosed]
  have hexists : ∀ ns', before.Exists ns' ↔ ns' = ns ∨ ns' ∈ t.announced.keys ∨
      t.Remains (.publishNamespace session requestId ns) ns' := by
    intro ns'
    have htracked := t.tracked_filter (e := .publishNamespace session requestId ns)
      (fun key track => !t.superseded ns session key track)
      (fun key track => by rw [Bool.not_eq_true']; exact Bool.eq_false_iff) ns'
    unfold Exists
    rw [hannounced, or_assoc]
    refine or_congr_right (or_congr_right ?_)
    rw [← htracked]
    unfold Tracked
    rw [htracks]
  rw [hafter]
  have hshown : before.Shown t.Exists :=
    h.congr (fun sub ns' => (hwatches sub ns').mp) hsent fun _ _ => Iff.rfl
  intro sub ns' hsub
  have hsub' : before.Watches sub ns' := hsub
  have hfresh : before.Fresh := by
    subst hbefore
    exact (hsound.fresh.requested (session, requestId) ns).congr (fun _ hkey => hkey)
      (List.Sublist.refl _) rfl rfl
  unfold announceNamespace
  rw [told_notify hfresh hsub']
  show _ ↔ before.Exists ns'
  rw [hexists]
  by_cases hsame : ns' = ns
  · rw [if_pos hsame]
    exact ⟨fun _ => .inl hsame, fun _ => rfl⟩
  · rw [if_neg hsame, or_iff_right hsame, hshown sub ns' hsub']
    exact hmeets.exists_iff ⟨sub, (hwatches sub ns').mp hsub'⟩ hsame

theorem shown_register (h : t.Shown t.Exists) (hfresh : t.Fresh) (session : Nat)
    (key : NsTuple × Bytes) (track : RegisteredTrack) :
    (t.registerTrack session key track).Shown (t.registerTrack session key track).Exists := by
  have hfresh' : Fresh { t with
      tracks := t.tracks.insert key { track with pendingPublish := some session } } :=
    hfresh.congr (fun _ hkey => hkey) (List.Sublist.refl _) rfl rfl
  have hshown : Shown { t with
      tracks := t.tracks.insert key { track with pendingPublish := some session } } t.Exists := h
  refine hshown.notify hfresh' key.1 .ns (fun _ => ⟨fun _ => .inr ?_, fun _ => rfl⟩)
    fun ns' hne => or_congr_right ?_
  · exact (t.tracked_insert key _ key.1).mpr (.inl rfl)
  · refine Iff.symm ((t.tracked_insert key _ ns').trans ?_)
    rw [or_iff_right (Ne.symm hne)]

/-- Tracks of other namespaces stay. -/
theorem tracked_erase_insert (t : NsTables) (key : NsTuple × Bytes) (track : RegisteredTrack)
    (ns : NsTuple) : Tracked { t with tracks := (t.tracks.erase key).insert key track } ns ↔
      Tracked { t with tracks := t.tracks.insert key track } ns := by
  have hentries : ∀ entry : (NsTuple × Bytes) × RegisteredTrack,
      entry ∈ ((t.tracks.erase key).insert key track).entries ↔
        entry ∈ (t.tracks.insert key track).entries := by
    rintro ⟨key', track'⟩
    rw [Dict.mem_entries_insert, Dict.mem_entries_insert]
    refine or_congr_right (and_congr_right fun hne => ?_)
    exact ⟨fun hmem => List.mem_of_mem_filter hmem, fun hmem =>
      List.mem_filter.mpr ⟨hmem, decide_eq_true hne⟩⟩
  constructor
  · rintro ⟨entry, hmem, hns⟩
    exact ⟨entry, (hentries entry).mp hmem, hns⟩
  · rintro ⟨entry, hmem, hns⟩
    exact ⟨entry, (hentries entry).mpr hmem, hns⟩

theorem shown_publish (h : t.Shown t.Exists) (hfresh : t.Fresh) (session : Nat)
    (key : NsTuple × Bytes) (mandatory : Bool) :
    (t.onPublish session key mandatory).Shown (t.onPublish session key mandatory).Exists := by
  unfold onPublish
  split
  · exact h
  · split
    · exact shown_register h hfresh session key _
    · split
      · exact h
      · split
        · -- the track that is replaced leaves room for one of the same namespace
          have hregister := shown_register h hfresh session key {}
          refine hregister.congr (fun _ _ hsub => hsub) rfl fun ns _ => or_congr_right ?_
          exact (t.tracked_erase_insert key _ ns).symm
        · exact shown_register h hfresh session key _

theorem shown_release (h : t.Shown t.Exists) (hsound : t.Sound) {session requestId : Nat}
    {ns : NsTuple} (hpositive : t.held ns session ≠ some 0)
    (hlast : t.Observed ns → t.OnlyHolder session ns → t.held ns session = some 1 →
      ¬ t.Tracked ns) :
    ({ t with announceRequests := t.announceRequests.erase (session, requestId) }.releaseHold
      session ns).Shown ({ t with
        announceRequests := t.announceRequests.erase (session, requestId) }.releaseHold
          session ns).Exists := by
  generalize ht' : { t with
    announceRequests := t.announceRequests.erase (session, requestId) } = t'
  have hfresh' : t'.Fresh := by
    subst ht'
    exact hsound.fresh.congr (fun _ hkey => (Dict.mem_keys_erase.mp hkey).2) (List.Sublist.refl _) rfl rfl
  have hshown : t'.Shown t'.Exists := by
    subst ht'
    exact h
  have hpositive' : t'.held ns session ≠ some 0 := by
    subst ht'
    exact hpositive
  have hlast' : t'.Observed ns → t'.OnlyHolder session ns → t'.held ns session = some 1 →
      ¬ t'.Tracked ns := by
    subst ht'
    exact hlast
  cases hheld : t'.held ns session with
  | none =>
      have hsame : t'.releaseHold session ns = t' := by
        unfold releaseHold
        split
        · rfl
        case h_2 holders hholders =>
          rw [held_of_get? hholders] at hheld
          rw [hheld]
      rwa [hsame]
  | some n =>
      obtain ⟨holders, holders', hholders, hholder, hrelease, hvalue, -⟩ := releaseHold_eq hheld
      have hmem : session ∈ holders.keys := mem_keys_of_get? hholder
      rw [hrelease]
      have htracks := (t'.putHolders_rest ns holders').2.1
      refine (hshown.putHolders hfresh' (mem_keys_of_get? hholders) fun hobserved hnone => ?_).congr
        (fun _ _ hsub => hsub) rfl fun ns' _ => or_congr_right ?_
      · have hone : n ≤ 1 := by
          by_contra hmore
          rw [hvalue, if_neg hmore] at hnone
          have hin : session ∈ (holders.insert session (n - 1)).keys := by
            rw [Dict.mem_keys, Dict.get?_insert, if_pos rfl]
            exact Option.some_ne_none _
          rw [hnone] at hin
          exact List.not_mem_nil hin
        rw [hvalue, if_pos hone] at hnone
        refine hlast' hobserved (onlyHolder_of_erased hholders hmem hnone) ?_
        rw [hheld] at hpositive' ⊢
        have hne : n ≠ 0 := fun hzero => hpositive' (congrArg some hzero)
        exact congrArg some (by omega)
      · unfold Tracked
        rw [htracks]

theorem shown_withdraw (h : t.Shown t.Exists) (hsound : t.Sound) (hcounted : t.Counted)
    {session : Nat} {requestId : Option Nat} {named : Option NsTuple}
    (hmeets : t.Meets (.withdraw session requestId named)) :
    (t.withdrawNamespace session requestId named).Shown
      (t.withdrawNamespace session requestId named).Exists := by
  unfold withdrawNamespace
  split
  · exact h
  case h_2 withdrawn hwithdrawn =>
    split
    · exact h
    case h_2 ns hget =>
      refine shown_release h hsound (hcounted.positive ns session)
        fun hobserved honly hone htracked => ?_
      refine (hmeets ns hobserved).1 ⟨withdrawn, hwithdrawn, hget, honly, hone⟩ ?_
      obtain ⟨entry, hmem, hns⟩ := htracked
      exact ⟨entry, hmem, hns, id⟩

theorem shown_subscribe (h : t.Shown t.Exists) (hfresh : t.Fresh) {session requestId : Nat}
    (hnew : (session, requestId) ∉ t.opened) (nsPrefix : NsTuple) :
    (t.onSubscribeNamespace session requestId nsPrefix).Shown
      (t.onSubscribeNamespace session requestId nsPrefix).Exists := by
  intro sub ns hsub
  have hexists : (t.onSubscribeNamespace session requestId nsPrefix).Exists ns ↔ t.Exists ns :=
    Iff.rfl
  rw [hexists]
  rcases told_subscribe hfresh hnew hsub with ⟨hold, htold⟩ | ⟨rfl, htold⟩
  · rw [htold]
    exact h sub ns ⟨hold, hsub.2⟩
  · have hknown : ns ∈ t.knownNamespaces nsPrefix ↔ t.Exists ns := by
      rw [mem_knownNamespaces, and_iff_left hsub.2.2]
      refine or_congr_right ?_
      unfold Tracked
      constructor
      · rintro ⟨key, hkey, hns⟩
        obtain ⟨entry, hmem, rfl⟩ := List.mem_map.mp hkey
        exact ⟨entry, hmem, hns⟩
      · rintro ⟨entry, hmem, hns⟩
        exact ⟨entry.1, List.mem_map_of_mem hmem, hns⟩
    rw [htold, ← hknown]
    by_cases hmem : ns ∈ t.knownNamespaces nsPrefix
    · rw [if_pos hmem]
      exact ⟨fun _ => hmem, fun _ => rfl⟩
    · rw [if_neg hmem]
      exact ⟨fun hnone => (by cases hnone), fun hmem' => absurd hmem' hmem⟩

/-- One round of the loop of `_forget_session`, seen against the tracks that stay. -/
theorem shown_forgetHolder {tracked : NsTuple → Prop} {session : Nat}
    (h : t.Shown fun ns => ns ∈ t.announced.keys ∨ tracked ns) (hfresh : t.Fresh) (ns : NsTuple)
    (hlast : t.Observed ns → t.OnlyHolder session ns → ¬ tracked ns) :
    (t.forgetHolder session ns).Shown fun ns' =>
      ns' ∈ (t.forgetHolder session ns).announced.keys ∨ tracked ns' := by
  unfold forgetHolder
  split
  · exact h
  case h_2 holders hholders =>
    split
    case isTrue hmem =>
      exact h.putHolders hfresh (mem_keys_of_get? hholders) fun hobserved hnone =>
        hlast hobserved (onlyHolder_of_erased hholders hmem hnone)
    case isFalse => exact h

/-- A session that was forgotten for one namespace is the only holder of no more of them. -/
theorem OnlyHolder.of_forgetHolder {session : Nat} {ns ns' : NsTuple}
    (h : (t.forgetHolder session ns).OnlyHolder session ns') : t.OnlyHolder session ns' := by
  obtain ⟨holders, hget, hmem, honly⟩ := h
  have hheld := t.held_forgetHolder session ns ns' session
  rw [held_of_get? hget] at hheld
  by_cases hsame : ns' = ns
  · rw [if_pos (And.intro hsame rfl)] at hheld
    exact absurd hheld (Dict.mem_keys.mp hmem)
  · have hkept : t.announced.get? ns' = some holders := by
      rw [← hget]
      unfold NsTables.forgetHolder NsTables.putHolders
      split
      · rfl
      · split
        · split
          · show _ = (t.announced.erase ns).get? ns'
            rw [Dict.get?_erase, if_neg hsame]
          · show _ = (t.announced.insert ns _).get? ns'
            rw [Dict.get?_insert, if_neg hsame]
        · rfl
    exact ⟨holders, hkept, hmem, honly⟩

theorem shown_forgetHolders {tracked : NsTuple → Prop} (session : Nat) (nss : List NsTuple)
    (h : t.Shown fun ns => ns ∈ t.announced.keys ∨ tracked ns) (hsound : t.Sound)
    (hlast : ∀ ns, t.Observed ns → t.OnlyHolder session ns → ¬ tracked ns) :
    (t.forgetHolders session nss).Shown fun ns =>
      ns ∈ (t.forgetHolders session nss).announced.keys ∨ tracked ns := by
  induction nss generalizing t with
  | nil => exact h
  | cons ns nss ih =>
      refine ih (t := t.forgetHolder session ns) (shown_forgetHolder h hsound.fresh ns (hlast ns))
        (hsound.forgetHolder session ns) fun ns' hobserved honly => ?_
      refine hlast ns' ?_ honly.of_forgetHolder
      obtain ⟨sub, hsub⟩ := hobserved
      obtain ⟨-, -, hsubs, hclosed, -⟩ := t.forgetHolder_rest session ns
      unfold Watches sessionLive at hsub
      rw [hsubs, hclosed] at hsub
      exact ⟨sub, hsub⟩

theorem shown_forget (h : t.Shown t.Exists) (hsound : t.Sound) {session : Nat}
    (hmeets : t.Meets (.forget session)) :
    (t.forgetSession session).Shown (t.forgetSession session).Exists := by
  have hobserved : ∀ ns, (t.forgetting session).Observed ns → t.Observed ns := by
    rintro ns ⟨sub, hsub⟩
    exact ⟨sub, List.mem_of_mem_filter hsub.1, hsub.2⟩
  -- the tracks that go are left out of account before the loop
  have hstart : (t.forgetting session).Shown fun ns =>
      ns ∈ (t.forgetting session).announced.keys ∨ t.Remains (.forget session) ns :=
    h.congr (fun sub ns hsub => ⟨List.mem_of_mem_filter hsub.1, hsub.2⟩) rfl fun ns hns =>
      hmeets.exists_iff (hobserved ns hns) id
  have hloop := shown_forgetHolders session t.announced.keys hstart
    (hsound.forgetting session) fun ns hns honly => (hmeets ns (hobserved ns hns)).1 honly
  rw [forgetSession_eq]
  refine hloop.congr (fun _ _ hsub => hsub) rfl fun ns _ => or_congr_right ?_
  exact (t.tracked_filter (e := .forget session) (fun _ track => !ownedBy session track)
    (fun key track => by rw [Bool.not_eq_true']; exact Bool.eq_false_iff) ns).symm

/-- **One event** that meets the condition keeps the view of the subscribers right. -/
theorem shown_step (h : t.Shown t.Exists) (hsound : t.Sound) (hcounted : t.Counted) {e : NsEvent}
    (henabled : t.Enabled e) (hmeets : t.Meets e) : (t.step e).Shown (t.step e).Exists := by
  cases e with
  | publishNamespace session requestId ns => exact shown_publishNamespace h hsound hmeets
  | withdraw session requestId named => exact shown_withdraw h hsound hcounted hmeets
  | publish session key mandatory => exact shown_publish h hsound.fresh session key mandatory
  | trackChanges key track =>
      refine h.congr (fun _ _ hsub => hsub) rfl fun ns _ => or_congr_right ?_
      refine Iff.symm ((t.tracked_insert key track ns).trans (or_iff_right_of_imp ?_))
      rintro rfl
      obtain ⟨entry, hmem, rfl⟩ := List.mem_map.mp henabled
      exact ⟨entry, hmem, rfl⟩
  | trackEnds key =>
      refine h.congr (fun _ _ hsub => hsub) rfl fun ns hobserved => ?_
      refine (hmeets.exists_iff hobserved id).trans (or_congr_right ?_)
      exact (t.tracked_filter (e := .trackEnds key) (fun key' _ => key' ≠ key)
        (fun key' _ => decide_eq_true_iff) ns).symm
  | subscribeNamespace session requestId nsPrefix =>
      exact shown_subscribe h hsound.fresh henabled nsPrefix
  | cancelSubscriber session requestId =>
      exact h.congr (fun sub ns hsub => ⟨List.mem_of_mem_filter hsub.1, hsub.2⟩) rfl
        fun _ _ => Iff.rfl
  | closes session =>
      refine h.congr (fun sub ns hsub => ⟨hsub.1, ?_, hsub.2.2⟩) rfl fun _ _ => Iff.rfl
      have hlive : sub.session ∉ session :: t.closed := of_decide_eq_true hsub.2.1
      exact decide_eq_true fun hmem => hlive (List.mem_cons_of_mem _ hmem)
  | forget session => exact shown_forget h hsound hmeets

theorem Counted.step (h : t.Counted) (hfresh : t.Fresh) {e : NsEvent} (henabled : t.Enabled e) :
    (t.step e).Counted := by
  have hkeep : ∀ t' : NsTables, t'.announced = t.announced →
      t'.announceRequests = t.announceRequests → t'.Counted := by
    intro t' hannounced hrequests
    obtain ⟨hcounts, hpositive, hholders⟩ := h
    unfold held holdCount at *
    refine ⟨?_, ?_, ?_⟩
    · unfold held holdCount
      rw [hannounced, hrequests]
      exact hcounts
    · unfold held
      rw [hannounced]
      exact hpositive
    · rw [hannounced]
      exact hholders
  cases e with
  | publishNamespace session requestId ns =>
      exact h.publish (fun hmem => henabled (hfresh.requests _ hmem)) ns
  | withdraw session requestId named => exact h.withdraw session requestId named
  | forget session => exact h.forget session
  | publish session key mandatory =>
      refine hkeep _ ?_ ?_ <;>
      · simp only [NsTables.step, onPublish]
        split
        · rfl
        · split
          · rfl
          · split
            · rfl
            · split <;> rfl
  | trackChanges | trackEnds | subscribeNamespace | cancelSubscriber | closes =>
      exact hkeep _ rfl rfl

end NsTables

/-! ## Runs -/

open NsTables

variable {t : NsTables}

/-- In every run the counts are right and NAMESPACE_DONE follows NAMESPACE. -/
theorem NsRun.sound {meets : NsTables → NsEvent → Prop} (h : NsRun meets t) :
    t.Sound ∧ t.Counted := by
  induction h with
  | start =>
      refine ⟨⟨⟨?_, ?_, ?_, List.nodup_nil⟩, ?_, paired_nil⟩, fun ns session => rfl,
        fun ns session hzero => (by cases hzero), fun ns holders hget => (by cases hget)⟩
      · exact fun key hkey => absurd hkey List.not_mem_nil
      · exact fun sub hsub => absurd hsub List.not_mem_nil
      · exact fun entry hentry => absurd hentry List.not_mem_nil
      · exact fun sub ns hsub => absurd hsub.1 List.not_mem_nil
  | step h henabled _ ih => exact ⟨ih.1.step henabled, ih.2.step ih.1.fresh henabled⟩

/-- In a run that meets the condition the view of every subscriber is right. -/
theorem NsRun.shown (h : NsRun NsTables.Meets t) : t.Shown t.Exists := by
  induction h with
  | start => exact fun sub ns hsub => absurd hsub.1 List.not_mem_nil
  | step h henabled hmeets ih =>
      obtain ⟨hsound, hcounted⟩ := h.sound
      exact shown_step ih hsound hcounted henabled hmeets

/-- **The namespace view.**  In every run the counts of `_announced` are those of
`_announce_requests` and NAMESPACE_DONE is sent only behind a NAMESPACE; and where every event meets
the condition, the last of the two that a subscriber was sent is NAMESPACE exactly for the
namespaces that exist. -/
theorem namespace_view {meets : NsTables → NsEvent → Prop} (h : NsRun meets t) :
    (∀ ns session, t.held ns session =
      if t.holdCount session ns = 0 then none else some (t.holdCount session ns)) ∧
    (∀ before key after, t.sent = before ++ (key, .nsDone) :: after →
      lastSaid before key = some .ns) ∧
    ((∀ t e, meets t e → t.Meets e) → ∀ sub ∈ t.nsSubs, t.sessionLive sub.session = true →
      ∀ ns, prefixCovers sub.nsPrefix ns = true →
        (t.told sub ns = some .ns ↔
          (∃ session, t.held ns session ≠ none) ∨ ∃ key ∈ t.tracks.keys, key.1 = ns)) := by
  obtain ⟨hsound, hcounted⟩ := h.sound
  refine ⟨fun ns session => ?_, hsound.paired, fun hmeets sub hsub hlive ns hcovers => ?_⟩
  · have hcounts := hcounted.counts ns session
    have hpositive := hcounted.positive ns session
    cases hheld : t.held ns session with
    | none =>
        rw [hheld, Option.getD_none] at hcounts
        rw [if_pos hcounts.symm]
    | some n =>
        rw [hheld, Option.getD_some] at hcounts
        rw [hheld] at hpositive
        have hne : n ≠ 0 := fun hzero => hpositive (congrArg some hzero)
        rw [← hcounts, if_neg hne]
  · have hrun : NsRun NsTables.Meets t := by
      clear hsound hcounted hsub hlive
      induction h with
      | start => exact .start
      | step _ henabled he ih => exact .step ih henabled (hmeets _ _ he)
    rw [hrun.shown sub ns ⟨hsub, hlive, hcovers⟩]
    refine or_congr ?_ ?_
    · constructor
      · intro hmem
        obtain ⟨holders, hget⟩ := Option.ne_none_iff_exists'.mp (Dict.mem_keys.mp hmem)
        obtain ⟨session, hsession⟩ := List.exists_mem_of_ne_nil _ (hcounted.holders ns holders hget)
        refine ⟨session, ?_⟩
        rw [held_of_get? hget]
        exact Dict.mem_keys.mp hsession
      · rintro ⟨session, hheld⟩
        rw [Dict.mem_keys]
        intro hnone
        refine hheld ?_
        unfold held
        rw [hnone, Option.bind_none]
    · constructor
      · rintro ⟨entry, hmem, hns⟩
        exact ⟨entry.1, List.mem_map_of_mem hmem, hns⟩
      · rintro ⟨key, hkey, hns⟩
        obtain ⟨entry, hmem, rfl⟩ := List.mem_map.mp hkey
        exact ⟨entry, hmem, hns⟩

/-- A track ends whose namespace stays announced. -/
theorem namespace_view_announced :
    ∃ t, NsRun NsTables.Meets t ∧ (t.held [[97]] 2 = some 1) ∧
      ∃ sub ∈ t.nsSubs, t.told sub [[97]] = some .ns := by
  have hnone : ∀ (t : NsTables) (e : NsEvent), t.tracks.entries = [] → t.Meets e := by
    intro t e htracks ns _
    refine ⟨fun _ hremains => ?_, fun _ htracked => ?_⟩
    · obtain ⟨entry, hmem, -⟩ := hremains
      rw [htracks] at hmem
      exact absurd hmem List.not_mem_nil
    · obtain ⟨entry, hmem, -⟩ := htracked
      rw [htracks] at hmem
      exact absurd hmem List.not_mem_nil
  have hsubscribed : NsRun NsTables.Meets (NsTables.step {} (.subscribeNamespace 1 0 [])) :=
    .step .start (List.not_mem_nil) (hnone _ _ rfl)
  have hannounced := hsubscribed.step (e := .publishNamespace 2 0 [[97]])
    (show ((2, 0) : Nat × Nat) ∉ [(1, 0)] by decide)
    (hnone _ _ rfl)
  have hpublished := hannounced.step (e := .publish 2 ([[97]], [116]) false) True.intro
    (hnone _ _ rfl)
  have hended := hpublished.step (e := .trackEnds ([[97]], [116])) True.intro ?_
  · refine ⟨_, hended, by decide, ⟨1, [], 0⟩, by decide, ?_⟩
    refine ((namespace_view hended).2.2 (fun _ _ h => h) ⟨1, [], 0⟩ (by decide) (by decide) [[97]]
      (by decide)).mpr (.inl ⟨2, by decide⟩)
  · intro ns _
    refine ⟨fun hwithdraws => (by cases hwithdraws), fun hgone htracked => ?_⟩
    obtain ⟨entry, hmem, rfl⟩ := htracked
    obtain rfl := List.mem_singleton.mp hmem
    exact absurd (by decide) hgone

/-- A bare PUBLISH ends and its namespace is never retracted; the last announcement of a namespace
is withdrawn, and the track that another session has in it goes on. -/
theorem namespace_view_stale :
    (∃ t, NsRun (fun _ _ => True) t ∧ ∃ sub ∈ t.nsSubs, t.sessionLive sub.session = true ∧
      prefixCovers sub.nsPrefix [[97]] = true ∧ t.told sub [[97]] = some .ns ∧
      t.announced.get? [[97]] = none ∧ t.tracks.keys = []) ∧
    ∃ t, NsRun (fun _ _ => True) t ∧ ∃ sub ∈ t.nsSubs, t.sessionLive sub.session = true ∧
      prefixCovers sub.nsPrefix [[97]] = true ∧ t.told sub [[97]] = some .nsDone ∧
      ([[97]], [116]) ∈ t.tracks.keys := by
  have hsubscribed : NsRun (fun _ _ => True) (NsTables.step {} (.subscribeNamespace 1 0 [])) :=
    .step .start List.not_mem_nil True.intro
  refine ⟨⟨_, (hsubscribed.step (e := .publish 2 ([[97]], [116]) false) True.intro
      True.intro).step (e := .trackEnds ([[97]], [116])) True.intro True.intro, ⟨1, [], 0⟩, ?_⟩,
    ⟨_, ((hsubscribed.step (e := .publishNamespace 2 0 [[97]])
    (show ((2, 0) : Nat × Nat) ∉ [(1, 0)] by decide) True.intro).step
      (e := .publish 3 ([[97]], [116]) false) True.intro True.intro).step
      (e := .withdraw 2 (some 0) none) True.intro True.intro, ⟨1, [], 0⟩, ?_⟩⟩
  · decide
  · decide

end AioMoqt.Relay
