import AioMoqt.Session.Admission

/-!
# Admitted requests do not overlap

Only an admitted opener or an admitted prefix update adds to `_peer_requests`, and each is held
against every other entry; whatever else happens takes entries out.
-/

namespace AioMoqt.Session

open AioMoqt.Lib AioMoqt.Lib.BigEndian AioMoqt.Lib.Reader AioMoqt.Messages

/-- Two subscriptions of one track, or two discovery requests of one type of which one covers the
other. -/
def PeerRequest.Overlaps : PeerRequest → PeerRequest → Prop
  | .subscribe ns name, .subscribe ns' name' => ns = ns' ∧ name = name'
  | .subscribeNamespace ns, .subscribeNamespace ns' => ns <+: ns' ∨ ns' <+: ns
  | .subscribeTracks ns, .subscribeTracks ns' => ns <+: ns' ∨ ns' <+: ns
  | _, _ => False

theorem PeerRequest.Overlaps.symm {r r' : PeerRequest} (h : r.Overlaps r') : r'.Overlaps r := by
  cases r with
  | subscribe ns name =>
      cases r' with
      | subscribe ns' name' => exact ⟨h.1.symm, h.2.symm⟩
      | subscribeNamespace ns' => exact h
      | subscribeTracks ns' => exact h
  | subscribeNamespace ns =>
      cases r' with
      | subscribe ns' name' => exact h
      | subscribeNamespace ns' => exact Or.symm h
      | subscribeTracks ns' => exact h
  | subscribeTracks ns =>
      cases r' with
      | subscribe ns' name' => exact h
      | subscribeNamespace ns' => exact h
      | subscribeTracks ns' => exact Or.symm h

namespace Admission

theorem prefixesOverlap_iff {held ns : List Bytes} :
    prefixesOverlap held ns = true ↔ held <+: ns ∨ ns <+: held := by
  unfold prefixesOverlap
  rw [decide_eq_true_eq, List.prefix_iff_eq_take, List.prefix_iff_eq_take]
  constructor
  · rintro (h | h)
    · exact Or.inr h.symm
    · exact Or.inl h.symm
  · rintro (h | h)
    · exact Or.inr h.symm
    · exact Or.inl h.symm

theorem overlapsPrefix_of_overlaps {tracks : Bool} {ns : List Bytes} {request : PeerRequest}
    (h : request.Overlaps (discoveryRequest tracks ns)) :
    overlapsPrefix tracks ns request = true := by
  cases tracks <;> cases request with
  | subscribe ns' name => exact h.elim
  | subscribeNamespace held =>
      first
      | exact h.elim
      | exact prefixesOverlap_iff.mpr h
  | subscribeTracks held =>
      first
      | exact h.elim
      | exact prefixesOverlap_iff.mpr h

/-! ## What is recorded -/

/-- The entry `request` under `rid` overlaps no other entry. -/
def Clear (s : Admission) (rid : Nat) (request : PeerRequest) : Prop :=
  ∀ rid' held, rid' ≠ rid → s.peerRequests.get? rid' = some held → ¬ held.Overlaps request

/-- Under `rid` nothing is recorded, or an entry that is clear. -/
def RecordsAt (s s' : Admission) (rid : Nat) : Prop :=
  s'.peerRequests = s.peerRequests ∨
    ∃ request, Clear s rid request ∧ s'.peerRequests = s.peerRequests.insert rid request

def Records (s s' : Admission) : Prop := ∃ rid, RecordsAt s s' rid

theorem RecordsAt.others {s s' : Admission} {rid rid' : Nat} (h : RecordsAt s s' rid)
    (hne : rid' ≠ rid) : s'.peerRequests.get? rid' = s.peerRequests.get? rid' := by
  rcases h with hsame | ⟨request, _, hinsert⟩
  · rw [hsame]
  · rw [hinsert, Dict.get?_insert, if_neg hne]

theorem Records.of_same {s s' : Admission} (h : s'.peerRequests = s.peerRequests) : Records s s' :=
  ⟨0, Or.inl h⟩

theorem any_of_get? {d : Dict Nat PeerRequest} {p : Nat × PeerRequest → Bool} {rid : Nat}
    {held : PeerRequest} (h : d.get? rid = some held) (hp : p (rid, held) = true) :
    d.entries.any p = true :=
  List.any_eq_true.mpr ⟨(rid, held), Dict.get?_eq_some.mp h, hp⟩

theorem overlapError_clear {s : Admission} {tracks : Bool} {ns : List Bytes}
    (h : s.overlapError tracks ns = none) (rid : Nat) :
    Clear s rid (discoveryRequest tracks ns) := by
  intro rid' held _ hheld hoverlaps
  have hany : s.peerRequests.entries.any (fun entry => overlapsPrefix tracks ns entry.2) = true :=
    any_of_get? hheld (overlapsPrefix_of_overlaps hoverlaps)
  unfold overlapError at h
  rw [if_pos hany] at h
  cases h

theorem duplicateError_clear {env : AdmissionEnv} {s : Admission} {ns : List Bytes} {name : Bytes}
    (h : s.duplicateError env (ns, name) = none) (rid : Nat) :
    Clear s rid (.subscribe ns name) := by
  intro rid' held _ hheld hoverlaps
  have hsame : held = .subscribe ns name := by
    cases held with
    | subscribe ns' name' => rw [hoverlaps.1, hoverlaps.2]
    | subscribeNamespace ns' => exact hoverlaps.elim
    | subscribeTracks ns' => exact hoverlaps.elim
  have hany : s.peerRequests.entries.any
      (fun entry => decide (entry.2 = .subscribe ns name)) = true :=
    any_of_get? hheld (decide_eq_true hsame)
  unfold duplicateError at h
  dsimp only at h
  rw [if_pos hany] at h
  cases h

theorem requestError_clear {env : AdmissionEnv} {s : Admission} {msg : ControlMessage}
    {request : PeerRequest} (h : s.requestError env msg = none) (hrecord : recordOf msg = some request)
    (rid : Nat) : Clear s rid request := by
  unfold requestError at h
  rw [Option.or_eq_none_iff, Option.or_eq_none_iff] at h
  obtain ⟨⟨_, hrule⟩, _⟩ := h
  cases msg <;> cases hrecord
  case subscribe msg => exact duplicateError_clear hrule rid
  case subscribeNamespace msg => exact overlapError_clear hrule rid
  case subscribeTracks msg => exact overlapError_clear hrule rid

@[simp] theorem noteRequestKind_peerRequests (s : Admission) (rid : Nat) (kind : MessageClass)
    (ours : Bool) : (s.noteRequestKind rid kind ours).peerRequests = s.peerRequests := by
  unfold noteRequestKind
  dsimp only
  split <;> rfl

theorem record_peerRequests (env : AdmissionEnv) (s : Admission) (rid : Nat)
    (msg : ControlMessage) :
    (s.record env rid msg).peerRequests = match recordOf msg with
      | some request => s.peerRequests.insert rid request
      | none => s.peerRequests := by
  unfold record
  cases msg <;> dsimp only [recordOf]
  case subscribeTracks msg => split <;> rfl

theorem refuseOpener_spec {env : AdmissionEnv} {s s' : Admission} {rid : Nat}
    {msg : ControlMessage} {refused : Option Refused}
    (h : s.refuseOpener env rid msg = (s', refused)) :
    RecordsAt s s' rid ∧ (refused ≠ none → s'.peerRequests = s.peerRequests) := by
  obtain ⟨noted, hnoted, hkept⟩ : ∃ noted : Admission,
      (if env.d20 then s.noteRequestKind rid msg.cls false else s) = noted ∧
        noted.peerRequests = s.peerRequests := by
    refine ⟨_, rfl, ?_⟩
    split_ifs
    · exact noteRequestKind_peerRequests s rid msg.cls false
    · rfl
  unfold refuseOpener at h
  rw [hnoted] at h
  dsimp only at h
  by_cases hgoaway : noted.goawaySent = true ∧ 18 ≤ env.draft.number
  · rw [if_pos hgoaway] at h
    cases h
    exact ⟨Or.inl hkept, fun _ => hkept⟩
  · rw [if_neg hgoaway] at h
    cases herror : noted.requestError env msg with
    | some error =>
        rw [herror] at h
        cases h
        exact ⟨Or.inl hkept, fun _ => hkept⟩
    | none =>
        rw [herror] at h
        cases h
        refine ⟨?_, fun hno => absurd rfl hno⟩
        have hrecorded := record_peerRequests env noted rid msg
        cases hrecord : recordOf msg with
        | none =>
            rw [hrecord] at hrecorded
            exact Or.inl (hrecorded.trans hkept)
        | some request =>
            rw [hrecord, hkept] at hrecorded
            refine Or.inr ⟨request, ?_, hrecorded⟩
            intro rid' held hne hheld
            apply requestError_clear herror hrecord rid rid' held hne
            rw [hkept]
            exact hheld

@[simp] theorem carryForward_peerRequests (s : Admission) (existing : Nat) (ours : Bool)
    (params : Params) : (s.carryForward existing ours params).peerRequests = s.peerRequests := by
  unfold carryForward
  split <;> rfl

theorem checkD20Update_spec {env : AdmissionEnv} {s s' : Admission} {msg : RequestUpdate}
    {refused : Option Refused} (h : s.checkD20Update env msg = .ok (s', refused)) :
    s'.peerRequests = s.peerRequests := by
  unfold checkD20Update at h
  cases hkind : msg.existingRequestId.bind fun existing =>
      (s.requestKinds.get? existing).map fun kind => (existing, kind) with
  | none =>
      rw [hkind] at h
      cases h
      rfl
  | some found =>
      obtain ⟨existing, cls, ours⟩ := found
      rw [hkind] at h
      dsimp only at h
      by_cases hmay : (ours = true ∧ cls ≠ .publish) ∨ (ours = false ∧ cls = .trackStatus)
      · rw [if_pos hmay] at h
        cases h
      · rw [if_neg hmay] at h
        obtain ⟨_, _, h⟩ := except_bind_eq_ok.mp h
        split_ifs at h with hrange
        cases hwhy : filterRefusal env.maxFilterRanges msg.parameters with
        | some why =>
            rw [hwhy] at h
            cases h
            rfl
        | none =>
            rw [hwhy] at h
            cases h
            exact carryForward_peerRequests s existing ours msg.parameters

theorem refusePrefixUpdate_spec {s s' : Admission} {msg : RequestUpdate}
    {refused : Option Refused} (h : s.refusePrefixUpdate msg = .ok (s', refused)) :
    Records s s' ∧ (refused ≠ none → s'.peerRequests = s.peerRequests) := by
  unfold refusePrefixUpdate at h
  cases hvalue : msg.parameters.get? trackNamespacePrefix with
  | none =>
      rw [hvalue] at h
      cases h
      exact ⟨Records.of_same rfl, fun _ => rfl⟩
  | some value =>
      cases hexisting : msg.existingRequestId with
      | none =>
          rw [hvalue, hexisting] at h
          cases h
          exact ⟨Records.of_same rfl, fun _ => rfl⟩
      | some existing =>
          rw [hvalue, hexisting] at h
          dsimp only at h
          cases hkind : (s.peerRequests.get? existing).bind discoveryKind with
          | none =>
              rw [hkind] at h
              cases h
              exact ⟨Records.of_same rfl, fun _ => rfl⟩
          | some tracks =>
              rw [hkind] at h
              obtain ⟨ns, _, h⟩ := except_bind_eq_ok.mp h
              split_ifs at h with hany
              · cases h
                exact ⟨Records.of_same rfl, fun _ => rfl⟩
              · cases h
                refine ⟨⟨existing, Or.inr ⟨discoveryRequest tracks ns, ?_, rfl⟩⟩,
                  fun hno => absurd rfl hno⟩
                -- the entry that is moved is the only one not held against the new prefix
                intro rid' held hne hheld hoverlaps
                apply hany
                apply any_of_get? hheld
                exact decide_eq_true ⟨hne, overlapsPrefix_of_overlaps hoverlaps⟩

theorem Records.of_eq {s t s' : Admission} (h : Records t s')
    (heq : t.peerRequests = s.peerRequests) : Records s s' := by
  obtain ⟨rid, hsame | ⟨request, hclear, hinsert⟩⟩ := h
  · exact Records.of_same (hsame.trans heq)
  · refine ⟨rid, Or.inr ⟨request, ?_, heq ▸ hinsert⟩⟩
    intro rid' held hne hheld
    exact hclear rid' held hne (heq ▸ hheld)

theorem refuseUpdate_spec {env : AdmissionEnv} {s s' : Admission} {msg : RequestUpdate}
    {refused : Option Refused} (h : s.refuseUpdate env msg = .ok (s', refused)) :
    Records s s' ∧ (refused ≠ none → s'.peerRequests = s.peerRequests) := by
  unfold refuseUpdate at h
  obtain ⟨⟨checked, first⟩, hchecked, h⟩ := except_bind_eq_ok.mp h
  have hkept : checked.peerRequests = s.peerRequests := by
    unfold checkUpdate at hchecked
    split_ifs at hchecked
    · exact checkD20Update_spec hchecked
    · cases hchecked
      rfl
  cases first with
  | some early =>
      cases h
      exact ⟨Records.of_same hkept, fun _ => hkept⟩
  | none =>
      obtain ⟨hrecords, hsame⟩ := refusePrefixUpdate_spec h
      exact ⟨hrecords.of_eq hkept, fun hrefused => (hsame hrefused).trans hkept⟩

theorem refuseOpening_spec {env : AdmissionEnv} {s s' : Admission} {msg : ControlMessage}
    {refused : Option Refused} (h : s.refuseOpening env msg = (s', refused)) :
    RecordsAt s s' (msg.requestId.getD 0) ∧
      (refused ≠ none → s'.peerRequests = s.peerRequests) := by
  unfold refuseOpening at h
  cases hrid : msg.requestId with
  | none =>
      rw [hrid] at h
      cases h
      exact ⟨Or.inl rfl, fun _ => rfl⟩
  | some rid =>
      rw [hrid] at h
      dsimp only at h
      split_ifs at h
      · cases h
        exact ⟨Or.inl rfl, fun _ => rfl⟩
      · cases h
        exact ⟨Or.inl rfl, fun _ => rfl⟩
      · exact refuseOpener_spec h

/-- What a message does to the table: an entry at most, which overlaps no other, and nothing when
it is refused. -/
theorem refuseRequest_spec {env : AdmissionEnv} {s s' : Admission} {msg : ControlMessage}
    {refused : Option Refused} (h : s.refuseRequest env msg = .ok (s', refused)) :
    Records s s' ∧ (refused ≠ none → s'.peerRequests = s.peerRequests) := by
  cases msg
  case publishStateNotify msg =>
    obtain ⟨_, _, h⟩ := except_bind_eq_ok.mp h
    cases h
    exact ⟨Records.of_same rfl, fun _ => rfl⟩
  case requestUpdate msg =>
    unfold refuseRequest at h
    dsimp only at h
    split_ifs at h
    · exact refuseUpdate_spec h
    · cases h
      exact ⟨Records.of_same rfl, fun _ => rfl⟩
  all_goals
    obtain ⟨hrecords, hsame⟩ := refuseOpening_spec (Except.ok.inj h)
    exact ⟨⟨_, hrecords⟩, hsame⟩

theorem admitMessage_spec {env : AdmissionEnv} {s s' : Admission} {msg : ControlMessage}
    {refused : Option Refused} (h : s.admitMessage env msg = .ok (s', refused)) :
    Records s s' ∧ (refused ≠ none → s'.peerRequests = s.peerRequests) := by
  unfold admitMessage at h
  obtain ⟨resolved, _, h⟩ := except_bind_eq_ok.mp h
  dsimp only at h
  cases hrefusal : resolved.refusal with
  | some refusal =>
      rw [hrefusal] at h
      cases h
      exact ⟨Records.of_same rfl, fun _ => rfl⟩
  | none =>
      rw [hrefusal] at h
      obtain ⟨hrecords, hsame⟩ := refuseRequest_spec h
      exact ⟨hrecords.of_eq rfl, hsame⟩

/-! ## What is taken out -/

/-- Entries are only taken out. -/
def Drops (s s' : Admission) : Prop := s'.peerRequests.Sub s.peerRequests

theorem Drops.of_eq {s s' : Admission} (h : s'.peerRequests = s.peerRequests) : Drops s s' := by
  unfold Drops
  rw [h]
  exact Dict.Sub.rfl

theorem Drops.of_erase {s s' : Admission} (rid : Nat)
    (h : s'.peerRequests = s.peerRequests.erase rid) : Drops s s' := by
  unfold Drops
  rw [h]
  exact Dict.erase_sub _ rid

theorem notifyRequestCancelled_peerRequests (s : Admission) (rid : Nat) :
    (s.notifyRequestCancelled rid).peerRequests = s.peerRequests.erase rid := rfl

theorem sendReply_peerRequests (s : Admission) (rid : Nat) (fin : Bool) :
    (s.sendReply rid fin).peerRequests = s.peerRequests ∨
      (s.sendReply rid fin).peerRequests = s.peerRequests.erase rid := by
  unfold sendReply
  split_ifs
  · exact Or.inl rfl
  · exact Or.inr rfl
  · exact Or.inl rfl

theorem sendReply_drops (s : Admission) (rid : Nat) (fin : Bool) : Drops s (s.sendReply rid fin) :=
  (sendReply_peerRequests s rid fin).elim Drops.of_eq (Drops.of_erase rid)

/-- A failed update drops one entry at most: that of the request it updated, or the one whose
subscription gets PUBLISH_DONE. -/
theorem updateFailed_peerRequests (s : Admission) (existing publishDone : Option Nat) :
    (s.updateFailed existing publishDone).peerRequests = s.peerRequests ∨
      ∃ rid, (existing = some rid ∨ publishDone = some rid) ∧
        (s.updateFailed existing publishDone).peerRequests = s.peerRequests.erase rid := by
  cases existing with
  | none => exact Or.inl rfl
  | some existing =>
      have hcancelled : (({ s with bidiStreams := s.bidiStreams.erase existing } : Admission)
          |>.notifyRequestCancelled existing).peerRequests = s.peerRequests.erase existing := rfl
      unfold updateFailed
      dsimp only
      split
      · exact Or.inl rfl
      · cases publishDone with
        | none => exact Or.inl rfl
        | some rid =>
            rcases sendReply_peerRequests s rid true with hsame | herase
            · exact Or.inl hsame
            · exact Or.inr ⟨rid, Or.inr rfl, herase⟩
      · exact Or.inr ⟨existing, Or.inl rfl, hcancelled⟩

theorem updateFailed_drops (s : Admission) (existing publishDone : Option Nat) :
    Drops s (s.updateFailed existing publishDone) := by
  rcases updateFailed_peerRequests s existing publishDone with hsame | ⟨rid, _, herase⟩
  · exact Drops.of_eq hsame
  · exact Drops.of_erase rid herase

theorem answer_drops (s : Admission) (publishDone : Option Nat) (refused : Refused) :
    Drops s (s.answer publishDone refused) := by
  cases refused with
  | request refusal => exact Drops.of_eq rfl
  | update refusal existing => exact updateFailed_drops s existing publishDone
  | drained rid => exact sendReply_drops s rid true

theorem streamFinished_drops (env : AdmissionEnv) (s : Admission) (streamId : Nat) :
    Drops s (s.streamFinished env streamId) := by
  unfold streamFinished
  split
  · exact Drops.of_eq rfl
  next rid _ =>
      split_ifs
      · exact Drops.of_erase rid rfl
      · exact Drops.of_eq rfl

theorem releaseRequestStream_drops (env : AdmissionEnv) (s : Admission) (streamId : Nat) :
    Drops s (s.releaseRequestStream env streamId) := by
  unfold releaseRequestStream
  split
  · exact Drops.of_eq rfl
  next rid _ =>
      apply Drops.of_erase rid
      dsimp only
      split_ifs <;> rfl

theorem foldl_erase_sub (ns : List Bytes) (entries : List (Nat × PeerRequest)) :
    ∀ requests : Dict Nat PeerRequest,
      (entries.foldl (fun requests entry =>
        if entry.2 = .subscribeNamespace ns then requests.erase entry.1 else requests)
        requests).Sub requests := by
  induction entries with
  | nil => exact fun _ => Dict.Sub.rfl
  | cons entry entries ih =>
      intro requests
      rw [List.foldl_cons]
      refine (ih _).trans ?_
      split_ifs
      · exact Dict.erase_sub requests entry.1
      · exact Dict.Sub.rfl

theorem handleRequestUpdate_drops (env : AdmissionEnv) (s : Admission) (msg : RequestUpdate)
    (publishDone : Option Nat) : Drops s (s.handleRequestUpdate env msg publishDone) := by
  unfold handleRequestUpdate
  dsimp only
  have hreply := sendReply_drops s msg.requestId false
  split_ifs
  · exact hreply
  · exact (updateFailed_drops _ msg.existingRequestId publishDone).trans hreply
  · exact hreply

/-! ## Runs -/

/-- A step records a clear entry, or takes entries out. -/
theorem step_spec {env : AdmissionEnv} {s s' : Admission} {event : AdmissionEvent}
    (h : s.step env event = .ok s') : Records s s' ∨ Drops s s' := by
  cases event
  case message msg =>
    unfold step at h
    obtain ⟨⟨admitted, refused⟩, hadmit, h⟩ := except_bind_eq_ok.mp h
    cases h
    exact Or.inl (admitMessage_spec hadmit).1
  case answer publishDone =>
    unfold step at h
    cases hqueue : s.refusals with
    | nil =>
        rw [hqueue] at h
        cases h
        exact Or.inl (Records.of_same rfl)
    | cons refused rest =>
        rw [hqueue] at h
        cases h
        exact Or.inr (answer_drops _ publishDone refused)
  case opened rid kind =>
    cases h
    exact Or.inl (Records.of_same (noteRequestKind_peerRequests s rid kind true))
  case cancelled rid =>
    cases h
    exact Or.inr (Drops.of_erase rid (notifyRequestCancelled_peerRequests s rid))
  case finished streamId =>
    cases h
    exact Or.inr (streamFinished_drops env s streamId)
  case released streamId =>
    cases h
    exact Or.inr (releaseRequestStream_drops env s streamId)
  case unsubscribeNamespace ns =>
    cases h
    exact Or.inr (foldl_erase_sub ns s.peerRequests.entries s.peerRequests)
  case updateUnhandled msg publishDone =>
    cases h
    exact Or.inr (handleRequestUpdate_drops env s msg publishDone)
  case reply rid fin =>
    cases h
    exact Or.inr (sendReply_drops s rid fin)
  case refused rid =>
    cases h
    unfold refusePeerRequest
    split_ifs
    · exact Or.inr (Drops.of_erase rid rfl)
    · exact Or.inl (Records.of_same rfl)
  all_goals
    cases h
    exact Or.inl (Records.of_same rfl)

theorem Records.apart {s s' : Admission} (h : Records s s')
    (happart : s.peerRequests.Apart PeerRequest.Overlaps) :
    s'.peerRequests.Apart PeerRequest.Overlaps := by
  obtain ⟨rid, hsame | ⟨request, hclear, hinsert⟩⟩ := h
  · rw [hsame]
    exact happart
  · rw [hinsert]
    exact happart.insert (fun _ _ => PeerRequest.Overlaps.symm) hclear

theorem run_apart {env : AdmissionEnv} (events : List AdmissionEvent) :
    ∀ {s s' : Admission}, s.peerRequests.Apart PeerRequest.Overlaps →
      s.run env events = .ok s' → s'.peerRequests.Apart PeerRequest.Overlaps := by
  induction events with
  | nil =>
      intro s s' happart h
      cases h
      exact happart
  | cons event events ih =>
      intro s s' happart h
      obtain ⟨next, hstep, h⟩ := except_bind_eq_ok.mp h
      refine ih ?_ h
      rcases step_spec hstep with hrecords | hdrops
      · exact hrecords.apart happart
      · exact happart.sub hdrops

/-- Every refusal leaves the table as it was, also when it has been answered. -/
def RefusalsChangeNothing (env : AdmissionEnv) : Prop :=
  ∀ events (s s' : Admission) msg refused publishDone, ({} : Admission).run env events = .ok s →
    s.admitMessage env msg = .ok (s', some refused) →
    (s'.answer publishDone refused).peerRequests = s.peerRequests

/-- What admission promises. -/
structure Sound (env : AdmissionEnv) : Prop where
  /-- No two admitted requests overlap. -/
  apart : ∀ events s, ({} : Admission).run env events = .ok s →
    s.peerRequests.Apart PeerRequest.Overlaps
  refused : ∀ (s s' : Admission) msg refused, s.admitMessage env msg = .ok (s', some refused) →
    s'.peerRequests = s.peerRequests
  /-- An admitted request that its handler refuses leaves nothing behind. -/
  withdrawn : ∀ (s s' : Admission) msg rid, env.prof.draft16 = true →
    isRequestOpener msg = true → msg.requestId = some rid → s.peerRequests.get? rid = none →
    s.refuseRequest env msg = .ok (s', none) →
    ∀ rid', (s'.refusePeerRequest env rid).peerRequests.get? rid' = s.peerRequests.get? rid'
  answered : ∀ (s : Admission) publishDone refusal,
    (s.answer publishDone (.request refusal)).peerRequests = s.peerRequests
  /-- A draining session ends at most what is recorded under the same id. -/
  drained : ∀ (s : Admission) publishDone rid rid',
    (s.peerRequests.get? rid = none ∨ rid' ≠ rid) →
    (s.answer publishDone (.drained rid)).peerRequests.get? rid' = s.peerRequests.get? rid'
  /-- A refused update ends the request it updates, and no other. -/
  others : ∀ (s : Admission) publishDone refusal existing rid, existing ≠ some rid →
    publishDone ≠ some rid →
    (s.answer publishDone (.update refusal existing)).peerRequests.get? rid =
      s.peerRequests.get? rid
  ends : ∀ (s : Admission) publishDone refusal existing,
    (∀ entry, s.requests.get? existing = some entry →
      entry.publisher = true ∧ entry.sub = false) →
    (s.answer publishDone (.update refusal (some existing))).peerRequests =
      s.peerRequests.erase existing
  /-- A track's subscription ends with the request that its PUBLISH_DONE goes to. -/
  endsSubscription : ∀ (s : Admission) refusal existing entry rid,
    s.requests.get? existing = some entry → entry.publisher = true → entry.sub = true →
    rid ∉ s.goneRequests →
    (s.answer (some rid) (.update refusal (some existing))).peerRequests =
      s.peerRequests.erase rid

/-- At every point of every run no two admitted requests overlap, and a refusal changes nothing
but what its answer ends. -/
theorem admitted_requests_apart (env : AdmissionEnv) : Sound env where
  apart events s h := run_apart events (Dict.Apart.empty _) h
  refused s s' msg refused h := (admitMessage_spec h).2 (by simp)
  withdrawn s s' msg rid hdraft hopener hrid hfree h rid' := by
    have hopening : s.refuseOpening env msg = (s', none) := by
      cases msg
      all_goals first | exact Except.ok.inj h | cases hopener
    have hrecords := (refuseOpening_spec hopening).1
    rw [hrid] at hrecords
    unfold refusePeerRequest
    rw [if_pos hdraft, Dict.get?_erase]
    split_ifs with hsame
    · rw [hsame, hfree]
    · exact hrecords.others hsame
  answered s publishDone refusal := rfl
  drained s publishDone rid rid' hfree := by
    rcases sendReply_peerRequests s rid true with hsame | herase
    · exact congrArg (fun d => d.get? rid') hsame
    · change (s.sendReply rid true).peerRequests.get? rid' = _
      rw [herase, Dict.get?_erase]
      split_ifs with hrid
      · rw [hrid]
        exact (hfree.resolve_right fun hno => hno hrid).symm
      · rfl
  others s publishDone refusal existing rid hexisting hdone := by
    change (s.updateFailed existing publishDone).peerRequests.get? rid = _
    rcases updateFailed_peerRequests s existing publishDone with hsame | ⟨ended, hended, herase⟩
    · rw [hsame]
    · have hother : rid ≠ ended := by
        rintro rfl
        exact hended.elim hexisting hdone
      rw [herase, Dict.get?_erase, if_neg hother]
  ends s publishDone refusal existing hunbound := by
    change (s.updateFailed (some existing) publishDone).peerRequests = _
    unfold updateFailed
    dsimp only
    cases hbound : s.requests.get? existing with
    | none => rfl
    | some entry =>
        obtain ⟨publisher, track, sub⟩ := entry
        obtain ⟨hpublisher, hsub⟩ := hunbound _ hbound
        dsimp only at hpublisher hsub
        rw [hpublisher, hsub]
        rfl
  endsSubscription s refusal existing entry rid hbound hpublisher hsub hopen := by
    change (s.updateFailed (some existing) (some rid)).peerRequests = _
    obtain ⟨publisher, track, sub⟩ := entry
    dsimp only at hpublisher hsub
    subst hpublisher hsub
    unfold updateFailed
    dsimp only
    rw [hbound]
    show (s.sendReply rid true).peerRequests = _
    unfold sendReply
    rw [if_neg hopen, if_pos rfl]

/-- Two SUBSCRIBE_NAMESPACEs of the peer, `a` and `b`. -/
def twoPrefixes : List AdmissionEvent :=
  [.message (.subscribeNamespace
      { requestId := 1, namespacePrefix := [[0x61]], parameters := .empty }),
    .message (.subscribeNamespace
      { requestId := 3, namespacePrefix := [[0x62]], parameters := .empty })]

/-- An update of the second to `a/x`. -/
def movedOnto : RequestUpdate where
  requestId := 5
  existingRequestId := some 3
  parameters := Dict.empty.insert trackNamespacePrefix (.one (.plain (.tuple [[0x61], [0x78]])))

theorem refused_update_ends : ¬ RefusalsChangeNothing ⟨.d18, true, 0, none⟩ := by
  intro h
  have hnone := h twoPrefixes _ _ (.requestUpdate movedOnto) _ none rfl rfl
  have hkeys := congrArg (fun d => d.get? 3) hnone
  revert hkeys
  decide

end Admission

end AioMoqt.Session
