import AioMoqt.Relay.Namespaces
import Mathlib.Data.List.Nodup

/-!
# What the subscribers of a relay know

The counts of the announcements, and the notices of a prefix subscriber against the namespaces that
exist.
-/

namespace AioMoqt.Relay

open AioMoqt.Lib AioMoqt.Lib.BigEndian

/-! ## Prefixes -/

/-- A namespace under a prefix is its suffix. -/
theorem drop_inj {nsPrefix ns ns' : NsTuple} (h : prefixCovers nsPrefix ns = true)
    (h' : prefixCovers nsPrefix ns' = true)
    (hdrop : ns.drop nsPrefix.length = ns'.drop nsPrefix.length) : ns = ns' := by
  have htake : ns.take nsPrefix.length = ns'.take nsPrefix.length :=
    (of_decide_eq_true h).trans (of_decide_eq_true h').symm
  rw [← List.take_append_drop nsPrefix.length ns, htake, hdrop, List.take_append_drop]

namespace NsTables

/-! ## Requests -/

/-- Every request in the tables was opened, and every subscriber has its own. -/
structure Fresh (t : NsTables) : Prop where
  requests : ∀ key ∈ t.announceRequests.keys, key ∈ t.opened
  subs : ∀ sub ∈ t.nsSubs, (sub.session, sub.requestId) ∈ t.opened
  notices : ∀ entry ∈ t.sent, (entry.1.1, entry.1.2.1) ∈ t.opened
  distinct : (t.nsSubs.map fun sub => (sub.session, sub.requestId)).Nodup

variable {t : NsTables}

/-- Subscribers of one request are one. -/
theorem Fresh.same (h : t.Fresh) {sub sub' : NsSub} (hsub : sub ∈ t.nsSubs)
    (hsub' : sub' ∈ t.nsSubs) (hsession : sub.session = sub'.session)
    (hrequest : sub.requestId = sub'.requestId) : sub = sub' :=
  List.inj_on_of_nodup_map h.distinct hsub hsub' (Prod.ext hsession hrequest)

/-! ## Notices -/

/-- A subscriber that is told about a namespace. -/
def Watches (t : NsTables) (sub : NsSub) (ns : NsTuple) : Prop :=
  sub ∈ t.nsSubs ∧ t.sessionLive sub.session = true ∧ prefixCovers sub.nsPrefix ns = true

/-- The notice that a subscriber was sent last. -/
def told (t : NsTables) (sub : NsSub) (ns : NsTuple) : Option NsNotice :=
  lastSaid t.sent (sub.key ns)

/-- The keys of a round of notices. -/
theorem mem_round (h : t.Fresh) {sub : NsSub} {ns' : NsTuple} (hsub : t.Watches sub ns')
    (ns : NsTuple) (notice : NsNotice) :
    sub.key ns' ∈ (((t.nsSubs.filter fun sub =>
      prefixCovers sub.nsPrefix ns && t.sessionLive sub.session).map fun sub =>
        (sub.key ns, notice)).map Prod.fst) ↔ ns' = ns := by
  obtain ⟨hmem, hlive, hcovers⟩ := hsub
  rw [List.map_map, List.mem_map]
  constructor
  · rintro ⟨sub', hsub', hkey⟩
    obtain ⟨hmem', hkeep⟩ := List.mem_filter.mp hsub'
    obtain ⟨hcovers', -⟩ := Bool.and_eq_true_iff.mp hkeep
    have hkey' : sub'.key ns = sub.key ns' := hkey
    obtain ⟨hsession, hrest⟩ := Prod.ext_iff.mp hkey'
    obtain ⟨hrequest, hsuffix⟩ := Prod.ext_iff.mp hrest
    obtain rfl := h.same hmem' hmem hsession hrequest
    exact (drop_inj hcovers' hcovers hsuffix).symm
  · rintro rfl
    exact ⟨sub, List.mem_filter.mpr ⟨hmem, Bool.and_eq_true_iff.mpr ⟨hcovers, hlive⟩⟩, rfl⟩

/-- **A round of notices** is the last that each of its subscribers was told of the namespace. -/
theorem told_notify (h : t.Fresh) {sub : NsSub} {ns' : NsTuple} (hsub : t.Watches sub ns')
    (ns : NsTuple) (notice : NsNotice) :
    (t.notify ns notice).told sub ns' = if ns' = ns then some notice else t.told sub ns' := by
  have hround := mem_round h hsub ns notice
  unfold told notify
  rw [lastSaid_append, lastSaid_const (v := notice)]
  · by_cases hns : ns' = ns
    · rw [if_pos (hround.mpr hns), if_pos hns]
      rfl
    · rw [if_neg fun hmem => hns (hround.mp hmem), if_neg hns]
      rfl
  · intro entry hentry
    obtain ⟨sub', -, rfl⟩ := List.mem_map.mp hentry
    rfl

theorem notify_opened (h : t.Fresh) (ns : NsTuple) (notice : NsNotice) :
    ∀ entry ∈ (t.notify ns notice).sent, (entry.1.1, entry.1.2.1) ∈ t.opened := by
  intro entry hentry
  rcases List.mem_append.mp hentry with hold | hnew
  · exact h.notices entry hold
  · obtain ⟨sub, hsub, rfl⟩ := List.mem_map.mp hnew
    exact h.subs sub (List.mem_of_mem_filter hsub)

theorem Fresh.notify (h : t.Fresh) (ns : NsTuple) (notice : NsNotice) :
    (t.notify ns notice).Fresh :=
  ⟨h.requests, h.subs, notify_opened h ns notice, h.distinct⟩

/-- The keys of a round are different. -/
theorem round_nodup (h : t.Fresh) (ns : NsTuple) (notice : NsNotice) :
    (((t.nsSubs.filter fun sub =>
      prefixCovers sub.nsPrefix ns && t.sessionLive sub.session).map fun sub =>
        (sub.key ns, notice)).map Prod.fst).Nodup := by
  rw [List.map_map]
  refine List.Nodup.map_on (fun sub hsub sub' hsub' hkey => ?_)
    (List.Nodup.filter _ (List.Nodup.of_map _ h.distinct))
  have hkey' : sub.key ns = sub'.key ns := hkey
  obtain ⟨hsession, hrest⟩ := Prod.ext_iff.mp hkey'
  exact h.same (List.mem_of_mem_filter hsub) (List.mem_of_mem_filter hsub') hsession
    (Prod.ext_iff.mp hrest).1

/-! ## Counts -/

/-- The PUBLISH_NAMESPACEs of a session that hold a namespace. -/
def holdCount (t : NsTables) (session : Nat) (ns : NsTuple) : Nat :=
  t.announceRequests.entries.countP fun entry => entry.1.1 = session ∧ entry.2 = ns

/-- `_announced[ns][session]`. -/
def held (t : NsTables) (ns : NsTuple) (session : Nat) : Option Nat :=
  (t.announced.get? ns).bind fun holders => holders.get? session

/-- Every count of the announcements is that of their requests. -/
structure Counted (t : NsTables) : Prop where
  counts : ∀ ns session, (t.held ns session).getD 0 = t.holdCount session ns
  positive : ∀ ns session, t.held ns session ≠ some 0
  holders : ∀ ns holders, t.announced.get? ns = some holders → holders.keys ≠ []

theorem countP_one {α : Type} (p : α → Bool) (a : α) (l : List α) :
    (a :: l).countP p = l.countP p + if p a then 1 else 0 := by
  rw [List.countP_cons]

/-- A new request. -/
theorem holdCount_insert {session requestId : Nat} {ns : NsTuple}
    (hnew : (session, requestId) ∉ t.announceRequests.keys) (session' : Nat) (ns' : NsTuple) :
    holdCount { t with announceRequests := t.announceRequests.insert (session, requestId) ns }
      session' ns' = t.holdCount session' ns' + if session = session' ∧ ns = ns' then 1 else 0 := by
  unfold holdCount
  rw [(t.announceRequests.perm_insert _ ns).countP_eq, countP_one,
    Dict.erase_of_notMem hnew]
  simp only [decide_eq_true_eq]

/-- A request that goes. -/
theorem holdCount_erase {session requestId : Nat} {ns : NsTuple}
    (hget : t.announceRequests.get? (session, requestId) = some ns) (session' : Nat)
    (ns' : NsTuple) :
    holdCount { t with announceRequests := t.announceRequests.erase (session, requestId) }
      session' ns' + (if session = session' ∧ ns = ns' then 1 else 0) =
        t.holdCount session' ns' := by
  unfold holdCount
  rw [(Dict.perm_erase hget).countP_eq, countP_one]
  simp only [decide_eq_true_eq]

/-- The requests of a session go. -/
theorem holdCount_filter (session session' : Nat) (ns : NsTuple) :
    holdCount { t with
      announceRequests := t.announceRequests.filterKeys fun key => key.1 ≠ session } session' ns =
      if session' = session then 0 else t.holdCount session' ns := by
  unfold holdCount Dict.filterKeys
  rw [List.countP_filter]
  split
  case isTrue h =>
    subst h
    refine List.countP_eq_zero.mpr fun entry _ hentry => ?_
    simp only [Bool.and_eq_true, decide_eq_true_eq] at hentry
    exact hentry.2 hentry.1.1
  case isFalse h =>
    refine List.countP_congr fun entry _ => ?_
    simp only [Bool.and_eq_true, decide_eq_true_eq]
    exact ⟨fun hentry => hentry.1, fun hentry => ⟨hentry, fun heq => h (hentry.1.symm.trans heq)⟩⟩

theorem held_of_get? {t : NsTables} {ns : NsTuple} {holders : Dict Nat Nat}
    (h : t.announced.get? ns = some holders) (session : Nat) :
    t.held ns session = holders.get? session := by
  unfold held
  rw [h, Option.bind_some]

/-- `_announced` after the holders of a namespace changed. -/
theorem held_putHolders (t : NsTables) (ns : NsTuple) (holders : Dict Nat Nat) (ns' : NsTuple)
    (session : Nat) : (t.putHolders ns holders).held ns' session =
      if ns' = ns then holders.get? session else t.held ns' session := by
  unfold putHolders
  split
  case isTrue hnone =>
    show ((t.announced.erase ns).get? ns').bind _ = _
    rw [Dict.get?_erase]
    split
    · rw [Dict.get?_eq_none (by rw [hnone]; exact List.not_mem_nil)]
      rfl
    · rfl
  case isFalse =>
    show ((t.announced.insert ns holders).get? ns').bind _ = _
    rw [Dict.get?_insert]
    split <;> rfl

theorem holders_putHolders {ns : NsTuple} {holders : Dict Nat Nat}
    (h : ∀ ns' holders', t.announced.get? ns' = some holders' → holders'.keys ≠ []) (ns' : NsTuple)
    (holders' : Dict Nat Nat) (hget : (t.putHolders ns holders).announced.get? ns' = some holders') :
    holders'.keys ≠ [] := by
  unfold putHolders at hget
  split at hget
  case isTrue =>
    have hget' : (t.announced.erase ns).get? ns' = some holders' := hget
    rw [Dict.get?_erase] at hget'
    split at hget'
    · cases hget'
    · exact h ns' holders' hget'
  case isFalse hsome =>
    have hget' : (t.announced.insert ns holders).get? ns' = some holders' := hget
    rw [Dict.get?_insert] at hget'
    split at hget'
    · cases hget'
      exact hsome
    · exact h ns' holders' hget'

/-- What changing the holders leaves alone. -/
theorem putHolders_rest (t : NsTables) (ns : NsTuple) (holders : Dict Nat Nat) :
    (t.putHolders ns holders).announceRequests = t.announceRequests ∧
      (t.putHolders ns holders).tracks = t.tracks ∧ (t.putHolders ns holders).nsSubs = t.nsSubs ∧
      (t.putHolders ns holders).closed = t.closed ∧ (t.putHolders ns holders).opened = t.opened := by
  unfold putHolders
  split <;> exact ⟨rfl, rfl, rfl, rfl, rfl⟩

/-- Both tables count a new announcement. -/
theorem Counted.publish (h : t.Counted) {session requestId : Nat}
    (hnew : (session, requestId) ∉ t.announceRequests.keys) (ns : NsTuple) :
    (t.onPublishNamespace session requestId ns).Counted := by
  generalize ht' : t.onPublishNamespace session requestId ns = t'
  have hannounced : t'.announced = (t.hold ns session).announced := by subst ht'; rfl
  have hcount : ∀ session' ns', t'.holdCount session' ns' =
      t.holdCount session' ns' + if session = session' ∧ ns = ns' then 1 else 0 := by
    subst ht'
    exact fun session' ns' => holdCount_insert hnew session' ns'
  have hheld : ∀ ns' session', t'.held ns' session' =
      if ns' = ns ∧ session' = session then some ((t.held ns session).getD 0 + 1)
      else t.held ns' session' := by
    intro ns' session'
    unfold held
    rw [hannounced]
    show ((t.announced.insert ns _).get? ns').bind _ = _
    rw [Dict.get?_insert]
    by_cases hns : ns' = ns
    · subst hns
      rw [if_pos rfl, Option.bind_some, Dict.get?_insert]
      by_cases hsession : session' = session
      · rw [if_pos hsession, if_pos ⟨rfl, hsession⟩]
        cases t.announced.get? ns' <;> rfl
      · rw [if_neg hsession, if_neg fun h => hsession h.2]
        cases t.announced.get? ns' <;> rfl
    · rw [if_neg hns, if_neg fun h => hns h.1]
  refine ⟨fun ns' session' => ?_, fun ns' session' => ?_, fun ns' holders' hget => ?_⟩
  · rw [hheld, hcount, ← h.counts]
    by_cases hsame : ns' = ns ∧ session' = session
    · obtain ⟨rfl, rfl⟩ := hsame
      rw [if_pos ⟨rfl, rfl⟩, if_pos ⟨rfl, rfl⟩, Option.getD_some]
    · have hother : ¬ (session = session' ∧ ns = ns') := fun h => hsame ⟨h.2.symm, h.1.symm⟩
      rw [if_neg hsame, if_neg hother, Nat.add_zero]
  · rw [hheld]
    split
    · exact fun hzero => Nat.succ_ne_zero _ (Option.some.inj hzero)
    · exact h.positive ns' session'
  · rw [hannounced] at hget
    have hget' : (t.announced.insert ns _).get? ns' = some holders' := hget
    rw [Dict.get?_insert] at hget'
    split at hget'
    · have hholders := Option.some.inj hget'
      rw [← hholders, Dict.keys_insert]
      split
      · rename_i hmem
        exact List.ne_nil_of_mem hmem
      · exact List.append_ne_nil_of_right_ne_nil _ (List.cons_ne_nil _ _)
    · exact h.holders ns' holders' hget'

/-- A session that holds a namespace gives one hold back. -/
theorem releaseHold_eq {t : NsTables} {session n : Nat} {ns : NsTuple}
    (h : t.held ns session = some n) :
    ∃ holders holders', t.announced.get? ns = some holders ∧ holders.get? session = some n ∧
      t.releaseHold session ns = t.putHolders ns holders' ∧
      holders' = (if n ≤ 1 then holders.erase session else holders.insert session (n - 1)) ∧
      ∀ session', holders'.get? session' = if session' = session then
        (if n ≤ 1 then none else some (n - 1)) else holders.get? session' := by
  unfold held at h
  cases hholders : t.announced.get? ns with
  | none =>
      rw [hholders] at h
      cases h
  | some holders =>
      rw [hholders, Option.bind_some] at h
      refine ⟨holders, _, rfl, h, ?_, rfl, fun session' => ?_⟩
      · unfold releaseHold
        rw [hholders]
        dsimp only
        rw [h]
      · by_cases hlast : n ≤ 1
        · rw [if_pos hlast, Dict.get?_erase, if_pos hlast]
        · rw [if_neg hlast, Dict.get?_insert, if_neg hlast]

/-- Both count one announcement less. -/
theorem Counted.release (h : t.Counted) {session requestId : Nat} {ns : NsTuple}
    (hget : t.announceRequests.get? (session, requestId) = some ns) :
    ({ t with announceRequests := t.announceRequests.erase (session, requestId) }.releaseHold
      session ns).Counted := by
  generalize ht' : { t with
    announceRequests := t.announceRequests.erase (session, requestId) } = t'
  have hcount : ∀ session' ns', t'.holdCount session' ns' +
      (if session = session' ∧ ns = ns' then 1 else 0) = t.holdCount session' ns' := by
    subst ht'
    exact fun session' ns' => holdCount_erase hget session' ns'
  have hannounced : t'.announced = t.announced := by
    subst ht'
    rfl
  have hheld : ∀ ns' session', t'.held ns' session' = t.held ns' session' := fun ns' session' => by
    unfold held
    rw [hannounced]
  obtain ⟨n, hn⟩ : ∃ n, t'.held ns session = some n := by
    cases hnone : t'.held ns session with
    | some n => exact ⟨n, rfl⟩
    | none =>
        have hcounts := h.counts ns session
        have hone := hcount session ns
        rw [← hheld, hnone, Option.getD_none] at hcounts
        rw [if_pos ⟨rfl, rfl⟩] at hone
        omega
  obtain ⟨holders, holders', hholders, -, hrelease, -, hafter⟩ := releaseHold_eq hn
  have hheld' : ∀ ns' session', (t'.putHolders ns holders').held ns' session' =
      if ns' = ns ∧ session' = session then (if n ≤ 1 then none else some (n - 1))
      else t.held ns' session' := by
    intro ns' session'
    rw [held_putHolders, hafter, ← hheld]
    by_cases hns : ns' = ns
    · rw [if_pos hns, hns, held_of_get? hholders]
      by_cases hsession : session' = session
      · rw [if_pos hsession, if_pos (And.intro rfl hsession)]
      · rw [if_neg hsession, if_neg fun h : _ ∧ _ => hsession h.2]
    · rw [if_neg hns, if_neg fun h : _ ∧ _ => hns h.1]
  have hsame : ∀ session' ns', (t'.putHolders ns holders').holdCount session' ns' =
      t'.holdCount session' ns' := fun session' ns' => by
    unfold holdCount
    rw [(t'.putHolders_rest ns holders').1]
  rw [hrelease]
  refine ⟨fun ns' session' => ?_, fun ns' session' => ?_, fun ns' holders'' hget' => ?_⟩
  · have hbefore := h.counts ns' session'
    have hone := hcount session' ns'
    rw [hheld', hsame]
    by_cases hthis : ns' = ns ∧ session' = session
    · obtain ⟨rfl, rfl⟩ := hthis
      rw [← hheld, hn, Option.getD_some] at hbefore
      rw [if_pos (And.intro rfl rfl)] at hone
      rw [if_pos (And.intro rfl rfl)]
      split
      · rw [Option.getD_none]
        omega
      · rw [Option.getD_some]
        omega
    · rw [if_neg fun h : _ ∧ _ => hthis ⟨h.2.symm, h.1.symm⟩] at hone
      rw [if_neg hthis, hbefore, ← hone, Nat.add_zero]
  · rw [hheld']
    split
    · split
      · exact fun hnone => by cases hnone
      · exact fun hzero => by
          have := Option.some.inj hzero
          omega
    · exact h.positive ns' session'
  · refine holders_putHolders (fun ns'' holders'' hget'' => ?_) ns' holders'' hget'
    rw [hannounced] at hget''
    exact h.holders ns'' holders'' hget''

theorem Counted.withdraw (h : t.Counted) (session : Nat) (requestId : Option Nat)
    (named : Option NsTuple) : (t.withdrawNamespace session requestId named).Counted := by
  unfold withdrawNamespace
  cases t.withdrawnRequest session requestId named with
  | none => exact h
  | some requestId =>
      dsimp only
      cases hget : t.announceRequests.get? (session, requestId) with
      | none => exact h
      | some ns => exact h.release hget

/-- A closed session holds nothing any more. -/
theorem held_forgetHolder (t : NsTables) (session : Nat) (ns ns' : NsTuple) (session' : Nat) :
    (t.forgetHolder session ns).held ns' session' =
      if ns' = ns ∧ session' = session then none else t.held ns' session' := by
  unfold forgetHolder
  cases hholders : t.announced.get? ns with
  | none =>
      dsimp only
      split
      case isTrue h =>
        obtain ⟨rfl, -⟩ := h
        unfold held
        rw [hholders, Option.bind_none]
      case isFalse => rfl
  | some holders =>
      dsimp only
      split
      case isTrue hmem =>
        rw [held_putHolders]
        by_cases hns : ns' = ns
        · rw [if_pos hns, hns, Dict.get?_erase, held_of_get? hholders]
          by_cases hsession : session' = session
          · rw [if_pos hsession, if_pos (And.intro rfl hsession)]
          · rw [if_neg hsession, if_neg fun h : _ ∧ _ => hsession h.2]
        · rw [if_neg hns, if_neg fun h : _ ∧ _ => hns h.1]
      case isFalse hmem =>
        split
        case isTrue h =>
          obtain ⟨rfl, rfl⟩ := h
          rw [held_of_get? hholders, Dict.get?_eq_none hmem]
        case isFalse => rfl

theorem forgetHolder_rest (t : NsTables) (session : Nat) (ns : NsTuple) :
    (t.forgetHolder session ns).announceRequests = t.announceRequests ∧
      (t.forgetHolder session ns).tracks = t.tracks ∧
      (t.forgetHolder session ns).nsSubs = t.nsSubs ∧
      (t.forgetHolder session ns).closed = t.closed ∧
      (t.forgetHolder session ns).opened = t.opened := by
  unfold forgetHolder
  split
  · exact ⟨rfl, rfl, rfl, rfl, rfl⟩
  · split
    · exact t.putHolders_rest ns _
    · exact ⟨rfl, rfl, rfl, rfl, rfl⟩

/-- The loop of `_forget_session` over some of the namespaces. -/
def forgetHolders (t : NsTables) (session : Nat) (nss : List NsTuple) : NsTables :=
  nss.foldl (fun t ns => t.forgetHolder session ns) t

theorem held_forgetHolders (t : NsTables) (session : Nat) (nss : List NsTuple) (ns : NsTuple)
    (session' : Nat) : (t.forgetHolders session nss).held ns session' =
      if ns ∈ nss ∧ session' = session then none else t.held ns session' := by
  induction nss generalizing t with
  | nil => rw [if_neg fun h : _ ∧ _ => List.not_mem_nil h.1]; rfl
  | cons first nss ih =>
      show ((t.forgetHolder session first).forgetHolders session nss).held ns session' = _
      rw [ih, held_forgetHolder]
      by_cases hthis : ns = first ∧ session' = session
      · rw [if_pos hthis, ite_self, if_pos ⟨List.mem_cons.mpr (.inl hthis.1), hthis.2⟩]
      · rw [if_neg hthis]
        by_cases hrest : ns ∈ nss ∧ session' = session
        · rw [if_pos hrest, if_pos ⟨List.mem_cons_of_mem _ hrest.1, hrest.2⟩]
        · rw [if_neg hrest, if_neg]
          rintro ⟨hmem, hsession⟩
          exact (List.mem_cons.mp hmem).elim (fun hfirst => hthis ⟨hfirst, hsession⟩)
            fun hmem => hrest ⟨hmem, hsession⟩

theorem holders_forgetHolders (session : Nat) (nss : List NsTuple)
    (h : ∀ ns holders, t.announced.get? ns = some holders → holders.keys ≠ []) :
    ∀ ns holders, (t.forgetHolders session nss).announced.get? ns = some holders →
      holders.keys ≠ [] := by
  induction nss generalizing t with
  | nil => exact h
  | cons first nss ih =>
      refine ih (t := t.forgetHolder session first) ?_
      unfold forgetHolder
      split
      · exact h
      · split
        · exact holders_putHolders h
        · exact h

theorem forgetHolders_rest (t : NsTables) (session : Nat) (nss : List NsTuple) :
    (t.forgetHolders session nss).announceRequests = t.announceRequests ∧
      (t.forgetHolders session nss).tracks = t.tracks ∧
      (t.forgetHolders session nss).nsSubs = t.nsSubs ∧
      (t.forgetHolders session nss).closed = t.closed ∧
      (t.forgetHolders session nss).opened = t.opened := by
  induction nss generalizing t with
  | nil => exact ⟨rfl, rfl, rfl, rfl, rfl⟩
  | cons first nss ih =>
      obtain ⟨h1, h2, h3, h4, h5⟩ := ih (t.forgetHolder session first)
      obtain ⟨g1, g2, g3, g4, g5⟩ := t.forgetHolder_rest session first
      exact ⟨h1.trans g1, h2.trans g2, h3.trans g3, h4.trans g4, h5.trans g5⟩

theorem Counted.forget (h : t.Counted) (session : Nat) : (t.forgetSession session).Counted := by
  generalize hstart : { t with
    nsSubs := t.nsSubs.filter fun sub => sub.session ≠ session
    announceRequests := t.announceRequests.filterKeys fun key => key.1 ≠ session } = start
  have hannounced : start.announced = t.announced := by
    subst hstart
    rfl
  have hcount : ∀ session' ns, start.holdCount session' ns =
      if session' = session then 0 else t.holdCount session' ns := by
    subst hstart
    exact holdCount_filter session
  have hheld : ∀ ns session', (start.forgetHolders session t.announced.keys).held ns session' =
      if session' = session then none else t.held ns session' := by
    intro ns session'
    rw [held_forgetHolders]
    have hbefore : start.held ns session' = t.held ns session' := by
      unfold held
      rw [hannounced]
    rw [hbefore]
    by_cases hsession : session' = session
    · rw [if_pos hsession]
      by_cases hmem : ns ∈ t.announced.keys
      · rw [if_pos ⟨hmem, hsession⟩]
      · rw [if_neg fun h : _ ∧ _ => hmem h.1]
        unfold held
        rw [Dict.get?_eq_none hmem, Option.bind_none]
    · rw [if_neg fun h : _ ∧ _ => hsession h.2, if_neg hsession]
  have hholders := holders_forgetHolders (t := start) session t.announced.keys
    (fun ns holders hget => h.holders ns holders (hannounced ▸ hget))
  have hrequests := (start.forgetHolders_rest session t.announced.keys).1
  have hend : t.forgetSession session =
      { start.forgetHolders session t.announced.keys with
        tracks := (start.forgetHolders session t.announced.keys).tracks.filter
          fun _ track => !ownedBy session track } := by
    subst hstart
    rfl
  rw [hend]
  generalize start.forgetHolders session t.announced.keys = after at *
  refine ⟨fun ns session' => ?_, fun ns session' => ?_, hholders⟩
  · show (after.held ns session').getD 0 = after.holdCount session' ns
    have hsame : after.holdCount session' ns = start.holdCount session' ns := by
      unfold holdCount
      rw [hrequests]
    rw [hheld, hsame, hcount]
    split
    · rfl
    · exact h.counts ns session'
  · show after.held ns session' ≠ some 0
    rw [hheld]
    split
    · exact fun hnone => by cases hnone
    · exact h.positive ns session'

end NsTables

end AioMoqt.Relay
