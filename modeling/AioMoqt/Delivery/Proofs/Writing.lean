import AioMoqt.Delivery.Proofs.Carrying

/-!
# Writing what waits

A turn of the lane's task keeps the invariant: case by case, what a write of the delivery
comes to, and what the lane makes of it.
-/

namespace AioMoqt.Delivery

open AioMoqt.Messages SubgroupDelivery

variable {s t u : DeliveryLane} {d e : SubgroupDelivery} {os : List DeliveryItem}
  {x : DeliveryItem} {await : DeliveryAwait}

/-! ## What a write comes to -/

theorem writeObject_some {st : OpenStream} (hst : d.stream = some st) (epoch : Nat)
    (tr : Transport) :
    d.writeObject x epoch tr =
      if ¬ tr.encodes then (.raises .other, d)
      else (.waits (.object x epoch st.sid), d.putObject st x) := by
  unfold writeObject
  rw [hst]

/-- What `write` comes to at its first await. -/
theorem send_cases {P : Came → Prop} (tr : Transport) (hmapping : d.mapping = .perGroup)
    (fails : P (.raises .other, d))
    (closes : x.object.groupStart = true → P (.returns false, d.endGroup.exclude x))
    (excludes : x.object.groupStart = false → P (.returns false, d.exclude x))
    (refuses : x.object.groupStart = false → d.stoppedGroup = some x.groupId →
      P (.returns false, d))
    (opens : (d.stream.isSome → x.object.groupStart = true) →
      (d.stoppedGroup = some x.groupId → x.object.groupStart = true) →
      P (.waits (.opening x d.epoch), { d.endGroup with parkedOnHeader := true }))
    (writes : ∀ st, d.stream = some st → x.object.groupStart = false →
      P (.waits (.object x d.epoch st.sid), d.putObject st x)) :
    P (d.send x tr) := by
  unfold send
  rw [hmapping]
  dsimp only
  split_ifs with hpasses hrefused hresolves hrotates hfirst
  · exact refuses (Bool.eq_false_iff.mpr hrefused.2) hrefused.1
  · refine opens (fun hsome => ?_) (fun hstopped => ?_)
    · refine hrotates.resolve_right fun hnone => ?_
      rw [Option.isNone_iff_eq_none.mp hnone] at hsome
      simp at hsome
    · by_contra hlater
      exact hrefused ⟨hstopped, hlater⟩
  · obtain ⟨hlater, hopen⟩ := not_or.mp hrotates
    obtain ⟨st, hst⟩ := Option.ne_none_iff_exists'.mp (mt Option.isNone_iff_eq_none.mpr hopen)
    rw [writeObject_some hst]
    split_ifs
    · exact writes st hst (Bool.eq_false_iff.mpr hlater)
    · exact fails
  · exact fails
  · exact closes hfirst
  · exact excludes (Bool.eq_false_iff.mpr hfirst)

/-- The stream of a write is gone, or its epoch is over. -/
structure Gone (d e : SubgroupDelivery) : Prop where
  stream : e.stream = none
  stoppedGroup : e.stoppedGroup = d.stoppedGroup
  mapping : e.mapping = d.mapping
  ledger : Ledger d → Ledger e

theorem Gone.of_cleared (h : Cleared d e) (hledger : Ledger d → Ledger e) : Gone d e :=
  ⟨h.stream, h.stoppedGroup, h.mapping, hledger⟩

theorem gone_resetGroup (hsame : SameStreams d e) (hledger : Ledger d → Ledger e)
    (code : ResetCode) : Gone d (e.resetGroup code) :=
  ⟨rfl, hsame.stoppedGroup, hsame.mapping, fun h => (hledger h).resetGroup code⟩

theorem gone_finStream {st : OpenStream} (hst : d.stream = some st)
    (marker : Option (Nat × ObjectStatus)) : Gone d (d.finStream st marker) :=
  ⟨rfl, rfl, rfl, fun h => h.finStream hst marker⟩

theorem gone_endGroup (d : SubgroupDelivery) : Gone d d.endGroup := by
  cases hstream : d.stream with
  | none =>
    rw [endGroup_none hstream]
    exact ⟨hstream, rfl, rfl, id⟩
  | some st =>
    obtain ⟨marker, heq⟩ := endGroup_some hstream
    rw [heq]
    exact gone_finStream hstream marker

/-- What `write` comes to from one await to the next. -/
theorem goOn_cases {P : Came → Prop} (haloft : Flying d x await) (tr : Transport)
    (hmapping : d.mapping = .perGroup)
    (fails : ∀ err e, SameStreams d e → (Ledger d → Ledger e) → P (.raises err, e))
    (gone : ∀ e, Gone d e → e.fins = d.fins → P (.returns false, e))
    (stops : P (.returns false, { d with
      stoppedGroup := some x.groupId, stops := d.stops ++ (d.stream.map (·.sid)).toList,
      stream := none }))
    (opened : await = .opening x d.epoch → d.stream = none →
      P (.waits (.header x d.epoch d.streamCount), { d.openStream x.groupId (some x.place) with
        stream := some
          { sid := d.streamCount, groupId := x.groupId, firstObject := x.object.groupStart,
            opener := x.place } }))
    (writes : ∀ st e, d.stream = some st → st.groupId = x.groupId → SameStreams d e →
      (Ledger d → Ledger e) →
      P (.waits (.object x d.epoch st.sid), e.putObject st x))
    (sends : ∀ st, d.stream = some st → st.groupId = x.groupId →
      P (.returns true, d.writeReturned st.sid x)) :
    P (d.goOn await tr) := by
  have hstops : ∀ epoch, (epoch ≠ d.epoch → d.stream = none) →
      P (.returns false, d.streamStopped x epoch) := by
    intro epoch hgone
    unfold streamStopped
    split_ifs with hepoch
    · exact stops
    · refine gone d ⟨hgone ?_, rfl, rfl, id⟩ rfl
      exact fun heq => hepoch ⟨hmapping, heq.symm⟩
  cases await with
  | opening y epoch =>
    obtain ⟨rfl, -, hnone⟩ := haloft
    unfold goOn
    cases tr.outcome with
    | raises err => exact fails err d (.refl d) id
    | stopped => exact hstops epoch fun _ => hnone
    | taken | full =>
      show P (d.groupOpened y epoch)
      have hledger : Ledger d → Ledger (d.groupOpened y epoch).2 :=
        fun hledger => hledger.groupOpened hnone y epoch
      revert hledger
      unfold groupOpened
      split_ifs with hepoch
      · exact fun hledger => gone _ ⟨hnone, rfl, rfl, hledger⟩ rfl
      · obtain rfl := not_not.mp hepoch
        exact fun _ => opened rfl hnone
  | header y epoch sid =>
    obtain ⟨rfl, -, hopen, hnone⟩ := haloft
    unfold goOn
    cases tr.outcome with
    | raises err => exact fails err d (.refl d) id
    | stopped => exact hstops epoch hnone
    | taken | full =>
      have hledger : Ledger d → Ledger { d with parkedOnHeader := false } :=
        fun hledger => { hledger with }
      have hsame : SameStreams d { d with parkedOnHeader := false } :=
        ⟨rfl, rfl, rfl, rfl, rfl, rfl, rfl⟩
      simp only [awaited]
      split_ifs with hepoch
      · exact gone _ ⟨hnone fun heq => hepoch heq.symm, rfl, rfl, hledger⟩ rfl
      · obtain rfl := not_not.mp hepoch
        obtain ⟨st, hst, -, hgroup⟩ := hopen rfl
        rw [writeObject_some (d := { d with parkedOnHeader := false }) hst]
        split_ifs
        · exact writes st _ hst hgroup hsame hledger
        · exact fails .other _ hsame hledger
  | object y epoch sid =>
    obtain ⟨rfl, -, hopen, hnone⟩ := haloft
    unfold goOn
    cases tr.outcome with
    | raises err => exact fails err d (.refl d) id
    | stopped => exact hstops epoch hnone
    | taken | full =>
      simp only [awaited]
      split_ifs with hepoch
      · exact gone d ⟨hnone fun heq => hepoch heq.symm, rfl, rfl, id⟩ rfl
      · obtain rfl := not_not.mp hepoch
        obtain ⟨st, hst, rfl, hgroup⟩ := hopen rfl
        exact sends st hst hgroup
  | datagram y | openingOne y | headerOne y sid | objectOne y sid | endDatagram | endOpening g =>
    exact absurd haloft id

theorem epoch_endGroup (d : SubgroupDelivery) : d.endGroup.epoch = d.epoch := by
  cases hstream : d.stream with
  | none => rw [endGroup_none hstream]
  | some st =>
    obtain ⟨marker, heq⟩ := endGroup_some hstream
    rw [heq]
    rfl

/-- What `expire` comes to: a reset, or the end of an older group. -/
theorem expire_eq (hmapping : d.mapping = .perGroup) (g : Nat) :
    d.expire g = (true, d.resetGroup .deliveryTimeout) ∨
      (∀ st ∈ d.stream, st.groupId ≠ g) ∧ d.expire g = (true, d.endGroup) := by
  unfold expire
  rw [if_neg (by simp [hmapping])]
  split_ifs with hopen
  · exact Or.inl rfl
  · refine Or.inr ⟨fun st hst hgroup => hopen ?_, rfl⟩
    rw [Option.mem_def.mp hst, Option.map_some, hgroup]

theorem expire_gone (hmapping : d.mapping = .perGroup) (g : Nat) :
    ∃ e, d.expire g = (true, e) ∧ Gone d e := by
  rcases expire_eq hmapping g with heq | ⟨-, heq⟩
  · exact ⟨_, heq, gone_resetGroup (.refl d) id .deliveryTimeout⟩
  · exact ⟨_, heq, gone_endGroup d⟩

/-- What a CUT comes to. -/
theorem cut_cases (d : SubgroupDelivery) (floor : Option Nat) (tr : Transport) :
    (Ledger d → Ledger (floor.elim d fun floor => d.resetBelow floor tr)) ∧
      (Cleared d (floor.elim d fun floor => d.resetBelow floor tr) ∨
        (∀ st ∈ d.stream, ∀ f ∈ floor, f ≤ st.groupId) ∧
          SameStreams d (floor.elim d fun floor => d.resetBelow floor tr)) := by
  cases floor with
  | none => exact ⟨id, Or.inr ⟨by simp, .refl d⟩⟩
  | some floor =>
    refine ⟨fun hledger => hledger.resetBelow floor tr, (resetBelow_cases d floor tr).imp_right ?_⟩
    rintro ⟨habove, hsame⟩
    refine ⟨fun st hst f hf => ?_, hsame⟩
    obtain rfl := Option.some.inj hf
    exact habove st hst

/-- What `end_track` comes to at its first await. -/
theorem endTrack_cases {P : Came → Prop} {largest : Option (Nat × Nat)} (tr : Transport)
    (hmapping : d.mapping = .perGroup) (fails : P (.raises .other, d))
    (closes : ∀ st marker, d.stream = some st → P (.returns true, d.finStream st marker))
    (excludes : d.stream = none → P (.returns true, d))
    (opens : d.stream = none → ∀ g, P (.waits (.endOpening g), d)) :
    P (d.endTrack largest tr) := by
  unfold endTrack
  cases hstream : d.stream with
  | none =>
    rw [hmapping]
    dsimp only
    split_ifs with hpasses hdatagram
    · simp at hdatagram
    · exact opens hstream _
    · exact excludes hstream
  | some st =>
    obtain ⟨marker, hclosed⟩ := endGroup_some hstream
    dsimp only
    split_ifs
    · rw [hclosed]
      exact closes st marker hstream
    · exact closes st _ hstream
    · exact fails

namespace Sound

/-! ## What the lane makes of it -/

/-- The task writes nothing and no stream is open. -/
theorem grounded (h : Sound os s) (ht : t.Accounts) (hoffered : t.offered = s.offered)
    (hqueued : ∀ y ∈ t.queued, y ∈ s.queued) (hbusy : t.busy = false)
    (hstream : t.writer.stream = none) (hmapping : t.writer.mapping = s.writer.mapping)
    (hlined : Lined os t) (hledger : Ledger t.writer) : Sound os t ∧ current t = none := by
  have hnone : current t = none := by
    rw [current_of_not_busy hbusy, hstream]
    rfl
  refine ⟨h.unstreamed ht hoffered hqueued (fun y hy => ?_) hmapping hlined hnone
    (aloft_of_not_busy hbusy) hledger, hnone⟩
  rw [SendLane.inFlight_of_not_busy hbusy] at hy
  simp at hy

theorem next (h : Sound os s) (htask : s.task = .ready) : Sound os s.next :=
  h.same h.accounts.next h.places rfl rfl htask.symm rfl (.refl _) h.ledger

/-- The lane goes on past a group. -/
theorem skip_next (h : Sound os s) (hnone : current s = none) (htask : s.task = .ready)
    (gid : Nat) (count : Bool) (lost : Option Int) :
    Sound os (SendLane.next { s.skip gid count with lost }) := by
  have hskip := (h.skip hnone gid count).1
  have hlost : Sound os { s.skip gid count with lost } :=
    hskip.same { hskip.accounts with } hskip.places rfl rfl rfl rfl (.refl _) hskip.ledger
  exact hlost.next ((SendLane.task_skip s gid count).trans htask)

/-! ## An await is over -/

/-- What waits is as it was, and no stream is open. -/
theorem landed (h : Sound os s) (ht : t.Accounts) (hoffered : t.offered = s.offered)
    (hqueued : t.queued = s.queued) (hfloor : t.floor = s.floor) (hbusy : t.busy = false)
    (hgone : Gone s.writer t.writer) : Sound os t ∧ current t = none :=
  h.grounded ht hoffered (fun _ hy => hqueued ▸ hy) hbusy hgone.stream hgone.mapping
    (h.lined.congr hqueued hfloor hgone.stoppedGroup) (hgone.ledger h.ledger)

/-- The write of an object goes on. -/
theorem goesOn (h : Sound os s) (htask : s.task = .sending x await) (tr : Transport) :
    Sound os (s.sendCame writer x (s.writer.goOn await tr)) := by
  have haloft := h.aloft
  rw [Aloft, htask] at haloft
  have hflight := SendLane.inFlight_of_sending htask
  have horder := h.accounts.order
  rw [hflight] at horder
  have haccounts : ∀ came, SendLane.Accounts (s.sendCame writer x came) :=
    h.accounts.sendCame horder
  have hx : x ∈ os := h.flown x hflight
  have hgoing : ended s = false := by rw [ended, htask]
  refine goOn_cases (P := fun came => Sound os (s.sendCame writer x came)) haloft tr h.perGroup
    ?_ ?_ ?_ ?_ ?_ ?_
  · intro err e hsame hledger
    cases err with
    | other =>
      have hready := haccounts (.returns false, e.resetGroup .cancelled)
      obtain ⟨hlanded, hnone⟩ := h.landed (t := { s with
        writer := e.resetGroup .cancelled, through := s.through ++ [x], task := .ready })
        { hready with } rfl rfl rfl rfl (gone_resetGroup hsame hledger .cancelled)
      exact hlanded.skip_next hnone rfl x.groupId true (some x.groupId)
    | datagramTooLarge | cancelled =>
      have hwriter : Sound os { s with writer := e } :=
        h.same { h.accounts with } h.places rfl rfl rfl rfl hsame (hledger h.ledger)
      exact hwriter.exited.same (haccounts (.raises .cancelled, e)) h.places rfl rfl rfl rfl
        (.refl _) (hledger h.ledger)
  · intro e hgone _
    exact (h.landed (t := s.sendCame writer x (.returns false, e)) (haccounts _) rfl rfl rfl rfl
      hgone).1
  · -- The group is not reopened, and its first object is not among what waits.
    refine (h.grounded (t := s.sendCame writer x (.returns false, { s.writer with
      stoppedGroup := some x.groupId
      stops := s.writer.stops ++ (s.writer.stream.map (·.sid)).toList, stream := none }))
      (haccounts _) rfl (fun _ hy => hy) rfl rfl rfl ?_ (h.ledger.stop x.groupId)).1
    refine { begins := h.lined.begins, closed := h.lined.closed,
             stopped := fun g hg => ⟨x, hx, Option.some.inj hg⟩, notFirst := fun y hy hgroup => ?_ }
    by_contra hstart
    exact h.ranked.first x hx y (h.within y hy) (flight_place h.accounts h.places hflight y hy)
      (by simpa using hstart) (Option.some.inj hgroup)
  · intro hopening hnone
    refine h.still (haccounts (.waits _, _)) h.places rfl id rfl rfl (fun _ => hgoing)
      (fun y hy => Option.some.inj hy ▸ hx) rfl rfl (fun c hc => ?_) ?_
      ⟨rfl, le_rfl, fun _ => ⟨_, rfl, rfl, rfl⟩, fun hne => absurd rfl hne⟩
      (h.ledger.openStream hnone rfl rfl rfl (fun _ hend => hend) ?_ (Or.inl ⟨_, rfl, rfl⟩))
    · rw [current_of_opening hnone (hopening ▸ htask), if_pos rfl]
      exact hc
    · rintro z (hz | hz | ⟨st, hst, -⟩ | hz)
      · exact Or.inl hz
      · exact Or.inr (Or.inl (hflight.symm.trans hz))
      · rw [hnone] at hst
        simp at hst
      · exact Or.inr (Or.inr (Or.inr hz))
    · intro st hst
      obtain rfl := Option.some.inj hst
      exact List.mem_append_right _ List.mem_cons_self
  · intro st e hst hgroup hsame hledger
    refine h.still (haccounts (.waits _, _)) h.places rfl id rfl rfl (fun _ => hgoing)
      (fun y hy => Option.some.inj hy ▸ hx) hsame.mapping hsame.stoppedGroup (fun c hc => ?_) ?_
      ⟨rfl, hsame.epoch.ge, fun _ => ⟨_, rfl, rfl, hgroup⟩, fun hne => absurd hsame.epoch.symm hne⟩
      ((hledger h.ledger).putObject (hsame.stream.trans hst) hgroup)
    · rw [current_of_stream hst]
      exact hc
    · rintro z (hz | hz | ⟨st', hst', hz⟩ | hz)
      · exact Or.inl hz
      · exact Or.inr (Or.inl (hflight.symm.trans hz))
      · obtain rfl := Option.some.inj (hst.symm.trans hst')
        exact Or.inr (Or.inr (Or.inl ⟨_, rfl, hsame.sent.symm ▸ hz⟩))
      · exact Or.inr (Or.inr (Or.inr (hsame.excluded.symm ▸ hz)))
  · intro st hst hgroup
    refine h.still (haccounts (.returns true, _)) h.places rfl id rfl rfl (fun _ => hgoing)
      (fun y hy => absurd hy (by simp [SendLane.inFlight, SendLane.sendCame, SendLane.next]))
      rfl rfl (fun c hc => ?_) ?_ trivial { h.ledger with }
    · rw [current_of_stream hst]
      have hstill : current (s.sendCame writer x (.returns true, s.writer.writeReturned st.sid x)) =
          some (st.groupId, st.opener) := current_of_stream hst
      rwa [hstill] at hc
    · rintro z (hz | hz | ⟨st', hst', hz⟩ | hz)
      · exact Or.inl hz
      · obtain rfl := Option.some.inj (hflight.symm.trans hz)
        exact Or.inr (Or.inr (Or.inl ⟨st, hst, List.mem_append_right _ List.mem_cons_self⟩))
      · exact Or.inr (Or.inr (Or.inl ⟨st', hst', List.mem_append_left _ hz⟩))
      · exact Or.inr (Or.inr (Or.inr hz))

/-- The end of the track goes on, with no stream open. -/
theorem ends (h : Sound os s) (htask : s.task = .ending await) (tr : Transport) :
    Sound os (s.endCame (s.writer.goOn await tr)) := by
  have haloft := h.aloft
  rw [Aloft, htask] at haloft
  obtain ⟨⟨g, rfl⟩, hnone⟩ := haloft
  have haccounts := h.accounts.endCame (s.writer.goOn (.endOpening g) tr)
  have hstays : Gone s.writer s.writer := ⟨hnone, rfl, rfl, id⟩
  revert haccounts
  unfold goOn
  cases tr.outcome with
  | raises err =>
    cases err with
    | cancelled | datagramTooLarge | other =>
      exact fun haccounts => (h.landed haccounts rfl rfl rfl rfl hstays).1
  | stopped => exact fun haccounts => (h.landed haccounts rfl rfl rfl rfl hstays).1
  | taken | full =>
    exact fun haccounts => (h.landed haccounts rfl rfl rfl rfl
      ⟨hnone, rfl, rfl, fun hledger => hledger.endOpening hnone g tr⟩).1

/-! ## A control item -/

section control

variable {c : Control} {items : List (LaneEntry DeliveryObject)}

theorem queued_of_control (hitems : s.items = .control c :: items) :
    SendLane.queued { s with items } = s.queued := by
  rw [SendLane.queued_eq s, hitems]
  rfl

theorem pop_control (h : Sound os s) (hc : c ≠ .cut) (hitems : s.items = .control c :: items) :
    Sound os { s with items } := by
  have haccounts := h.accounts.pop_control hitems
  rw [if_neg hc] at haccounts
  have hqueued := queued_of_control hitems
  refine h.still haccounts h.places hqueued (fun hmem => ?_) rfl rfl id h.flown rfl rfl
    (fun _ => id) (fun z hkept => hkept.imp_left fun hz => hqueued.symm ▸ hz) h.aloft h.ledger
  rw [hitems] at hmem
  exact (List.mem_cons.mp hmem).resolve_left fun heq => hc (LaneEntry.control.inj heq).symm

/-- No stream below the floor is left open. -/
theorem pop_cut (h : Sound os s) (htask : s.task = .ready)
    (hitems : s.items = .control .cut :: items) (hsame : SameStreams s.writer e)
    (hledger : Ledger e) (habove : ∀ st ∈ s.writer.stream, ∀ floor ∈ s.floor, floor ≤ st.groupId)
    (ht : SendLane.Accounts { s with cut := false, items, writer := e }) :
    Sound os { s with cut := false, items, writer := e } := by
  have hqueued : SendLane.queued { s with cut := false, items, writer := e } = s.queued :=
    queued_of_control hitems
  exact {
    accounts := ht
    places := h.places
    ranked := h.ranked
    within := hqueued ▸ h.within
    flown := h.flown
    perGroup := hsame.mapping.trans h.perGroup
    lined := h.lined.congr hqueued rfl hsame.stoppedGroup
    carries := fun c hc => by
      obtain ⟨st, hst, rfl⟩ := (mem_current hc).resolve_right fun hopening => by
        obtain ⟨-, y, z, hsending, -⟩ := hopening
        simp [htask] at hsending
      have hst' : s.writer.stream = some st := hsame.stream.symm.trans hst
      have hcarries := h.carries_of hst'
      refine hcarries.mono (hqueued ▸ hcarries.behind) (fun hgoes => ⟨hgoes, fun g' => ?_⟩)
        hsame.stoppedGroup (fun _ floor hmem hlt => ?_) (fun hgoes hle => ⟨hgoes, hle, ?_⟩)
      · unfold Begins
        rw [hqueued]
        exact id
      · exact absurd (habove st hst' floor hmem) (not_le.mpr hlt)
      · intro z _ _ _ hkept
        unfold Carried SentOn at hkept ⊢
        rw [hqueued]
        exact (hsame.stream.symm ▸ hsame.sent.symm ▸ hsame.excluded.symm ▸ hkept)
    aloft := aloft_same h.aloft rfl hsame
    ledger := hledger }

/-- A CUT is carried out. -/
theorem cuts (h : Sound os s) (htask : s.task = .ready)
    (hitems : s.items = .control .cut :: items) (tr : Transport) :
    Sound os (SendLane.runControl writer { s with items } tr .cut) := by
  have hpop := h.accounts.pop_control hitems
  rw [if_pos rfl] at hpop
  have haccounts : ∀ e : SubgroupDelivery,
      SendLane.Accounts { s with cut := false, items, writer := e } := fun e => { hpop with }
  have hrun : Sound os { s with
      cut := false, items
      writer := s.floor.elim s.writer fun floor => s.writer.resetBelow floor tr } := by
    obtain ⟨hledger, hcleared | ⟨habove, hsame⟩⟩ := cut_cases s.writer s.floor tr
    · exact (h.landed (haccounts _) rfl (queued_of_control hitems) rfl
        (by rw [SendLane.busy, htask]) (.of_cleared hcleared hledger)).1
    · exact h.pop_cut htask hitems hsame (hledger h.ledger) habove (haccounts _)
  exact hrun.next htask

/-- The end of the track is written, or begun. -/
theorem tracks (h : Sound os s) (htask : s.task = .ready) (largest : Option (Nat × Nat))
    (tr : Transport) : Sound os (s.endCame (s.writer.endTrack largest tr)) := by
  have haccounts : ∀ came, SendLane.Accounts (s.endCame came) := h.accounts.endCame
  refine endTrack_cases (P := fun came => Sound os (s.endCame came)) tr h.perGroup ?_ ?_ ?_ ?_
  · exact h.next htask
  · intro st marker hst
    exact (h.landed (t := s.endCame (.returns true, _)) (haccounts _) rfl rfl rfl rfl
      (gone_finStream hst marker)).1
  · exact fun _ => h.next htask
  · intro hnone g
    refine h.unstreamed (haccounts (.waits (.endOpening g), s.writer)) rfl (fun _ hy => hy)
      (fun y hy => ?_) rfl (h.lined.congr rfl rfl rfl) (current_eq_none hnone fun y z epoch heq => ?_)
      ⟨⟨g, rfl⟩, hnone⟩ h.ledger
    · simp [SendLane.inFlight, SendLane.endCame] at hy
    · simp [SendLane.endCame] at heq

/-- A control item is carried out. -/
theorem acts (h : Sound os s) (htask : s.task = .ready) (hitems : s.items = .control c :: items)
    (tr : Transport) : Sound os (SendLane.runControl writer { s with items } tr c) := by
  have haccounts := h.accounts.runControl (W := writer) hitems tr
  cases c with
  | cut => exact h.cuts htask hitems tr
  | endGroup | close =>
    exact (h.landed haccounts rfl (queued_of_control hitems) rfl rfl (gone_endGroup _)).1
  | endTrack largest =>
    have hpop := h.pop_control (by simp) hitems
    unfold SendLane.runControl
    split_ifs
    · exact hpop.tracks htask largest tr
    · exact hpop.next htask
  | resetGroup gid =>
    have hpop := h.pop_control (by simp) hitems
    obtain ⟨hcleared, hnone⟩ := hpop.cleared (cleared_resetGroup _ .cancelled)
      (hpop.ledger.resetGroup _)
    cases gid with
    | none => exact hcleared.next htask
    | some gid => exact hcleared.skip_next hnone htask gid true _
  | final => exact (h.pop_control (by simp) hitems).exited

end control

end Sound

/-! ## An object -/

/-- The head of the queue, an object, is taken off. -/
structure Took (s u : DeliveryLane) (x : DeliveryItem) : Prop where
  accounts : u.Accounts
  order : (u.through ++ [x] ++ u.queued).Sublist u.offered
  items : s.items = .item x :: u.items
  floor : u.floor = s.floor
  offered : u.offered = s.offered
  going : s.stopped = false
  writer : u.writer = s.writer
  ready : s.task = .ready
  task : u.task = .ready

namespace Took

theorem of_items {items : List (LaneEntry DeliveryObject)} (haccounts : s.Accounts)
    (htask : s.task = .ready) (hstopped : s.stopped = false)
    (hitems : s.items = .item x :: items) : Took s (SendLane.uncount { s with items } x) x := by
  have hpop := haccounts.pop_item hitems
  have horder := haccounts.order
  rw [SendLane.inFlight_of_ready htask, SendLane.queued_of_items hitems, Option.toList_none,
    List.append_nil] at horder
  rw [SendLane.uncount_eq] at hpop ⊢
  refine ⟨hpop, ?_, hitems, rfl, rfl, hstopped, rfl, htask, htask⟩
  rw [List.append_assoc]
  exact horder

theorem queued (h : Took s u x) : s.queued = x :: u.queued := by
  rw [SendLane.queued_eq, h.items]
  rfl

/-- What is kept once the object is written. -/
theorem kept (h : Took s u x) (hitems : t.items = u.items) {z : DeliveryItem} (hz : Carried s z)
    (hne : z ≠ x) (hsent : SentOn u.writer z → SentOn t.writer z)
    (hexcluded : z ∈ u.writer.excluded → z ∈ t.writer.excluded) : Carried t z := by
  rcases hz with hz | hz | hz | hz
  · rw [h.queued] at hz
    refine Or.inl ?_
    rw [SendLane.queued_eq, hitems]
    exact (List.mem_cons.mp hz).resolve_left hne
  · rw [SendLane.inFlight_of_ready h.ready] at hz
    simp at hz
  · exact Or.inr (Or.inr (Or.inl (hsent (h.writer.symm ▸ hz))))
  · exact Or.inr (Or.inr (Or.inr (hexcluded (h.writer.symm ▸ hz))))

end Took

/-- An object that is not the first of its group was taken off the queue. -/
theorem Carries.pop {g p : Nat} (h : Carries os s g p) (htook : Took s u x)
    (hstart : x.object.groupStart = false) (hitems : t.items = u.items) (hfloor : t.floor = u.floor)
    (hgroup : t.writer.stoppedGroup = u.writer.stoppedGroup)
    (hkept : ∀ z, Carried s z → z ≠ x → Carried t z) (hx : x.groupId = g → Carried t x) :
    Carries os t g p := by
  have hqueued : s.queued = x :: t.queued := by
    rw [htook.queued, SendLane.queued_eq t, hitems]
    rfl
  have hgoing : ended s = false := by rw [ended, htook.ready]
  refine h.mono (fun y hy => ?_) (fun _ => ⟨htook.going, fun g' => ?_⟩)
    (hgroup.trans (congrArg _ htook.writer)) (fun _ floor hmem hlt => ?_) (fun _ hle => ⟨hgoing, ?_, ?_⟩)
  · exact h.behind y (hqueued ▸ List.mem_cons_of_mem _ hy)
  · rintro (⟨floor, hmem, hlt⟩ | ⟨y, hy, hsame, hfirst⟩)
    · exact Or.inl ⟨floor, by rwa [hfloor, htook.floor], hlt⟩
    · rw [hqueued] at hy
      refine Or.inr ⟨y, (List.mem_cons.mp hy).resolve_left ?_, hsame, hfirst⟩
      rintro rfl
      exact Bool.false_ne_true (hstart.symm.trans hfirst)
  · rw [hfloor, htook.floor] at hmem
    have hcut := h.cut hgoing floor hmem hlt
    rw [htook.items] at hcut
    rw [hitems]
    exact (List.mem_cons.mp hcut).resolve_left (by simp)
  · rwa [hfloor, htook.floor] at hle
  · intro z _ hz _ hzkept
    by_cases heq : z = x
    · exact heq ▸ hx (heq ▸ hz)
    · exact hkept z hzkept heq

namespace Sound

/-- The head of the queue was taken off. -/
theorem pop (h : Sound os s) (htook : Took s u x) (ht : t.Accounts)
    (hoffered : t.offered = u.offered) (hitems : t.items = u.items) (hfloor : t.floor = u.floor)
    (hflown : ∀ y ∈ t.inFlight, y = x) (hmapping : t.writer.mapping = u.writer.mapping)
    (hgroup : t.writer.stoppedGroup = u.writer.stoppedGroup)
    (hcarries : ∀ c ∈ current t, Carries os t c.1 c.2) (haloft : Aloft t)
    (hledger : Ledger t.writer) : Sound os t := by
  have hqueued : s.queued = x :: t.queued := by
    rw [htook.queued, SendLane.queued_eq t, hitems]
    rfl
  have hplaces := queued_places h.accounts h.places
  rw [hqueued] at hplaces
  exact {
    accounts := ht
    places := by
      rw [hoffered, htook.offered]
      exact h.places
    ranked := h.ranked
    within := fun y hy => h.within y (hqueued ▸ List.mem_cons_of_mem _ hy)
    flown := fun y hy => h.within y (hflown y hy ▸ hqueued ▸ List.mem_cons_self)
    perGroup := by
      rw [hmapping, htook.writer]
      exact h.perGroup
    lined := h.lined.tail h.ranked hplaces h.within hqueued (hfloor.trans htook.floor)
      (hgroup.trans (congrArg _ htook.writer))
    carries := hcarries
    aloft := haloft
    ledger := hledger }

/-- The object was taken off, and no stream is open. -/
theorem pop_gone (h : Sound os s) (htook : Took s u x) (ht : t.Accounts)
    (hoffered : t.offered = u.offered) (hitems : t.items = u.items) (hfloor : t.floor = u.floor)
    (hbusy : t.busy = false) (hgone : Gone u.writer t.writer) :
    Sound os t ∧ current t = none := by
  have hnone : current t = none := by
    rw [current_of_not_busy hbusy, hgone.stream]
    rfl
  refine ⟨h.pop htook ht hoffered hitems hfloor (fun y hy => ?_) hgone.mapping hgone.stoppedGroup
    (fun c hc => ?_) (aloft_of_not_busy hbusy) (hgone.ledger (htook.writer.symm ▸ h.ledger)), hnone⟩
  · rw [SendLane.inFlight_of_not_busy hbusy] at hy
    simp at hy
  · rw [hnone] at hc
    simp at hc

/-- The object was taken off, and its stream is as it was. -/
theorem pop_same (h : Sound os s) (htook : Took s u x) (hstart : x.object.groupStart = false)
    (ht : t.Accounts) (hoffered : t.offered = u.offered) (hitems : t.items = u.items)
    (hfloor : t.floor = u.floor) (hbusy : t.busy = false)
    (hmapping : t.writer.mapping = u.writer.mapping)
    (hgroup : t.writer.stoppedGroup = u.writer.stoppedGroup)
    (hstream : t.writer.stream = u.writer.stream) (hsent : t.writer.sent = u.writer.sent)
    (hexcluded : ∀ z ∈ u.writer.excluded, z ∈ t.writer.excluded)
    (hx : ∀ st ∈ u.writer.stream, x.groupId = st.groupId → Carried t x)
    (hledger : Ledger t.writer) : Sound os t := by
  refine h.pop htook ht hoffered hitems hfloor (fun y hy => ?_) hmapping hgroup (fun c hc => ?_)
    (aloft_of_not_busy hbusy) hledger
  · rw [SendLane.inFlight_of_not_busy hbusy] at hy
    simp at hy
  · rw [current_of_not_busy hbusy, hstream] at hc
    obtain ⟨st, hst, rfl⟩ := Option.mem_map.mp hc
    refine (h.carries_of (htook.writer ▸ hst)).pop htook hstart hitems hfloor hgroup ?_
      (hx st hst)
    refine fun z hz hne => htook.kept hitems hz hne (fun hsentOn => ?_) (hexcluded z)
    unfold SentOn at hsentOn ⊢
    rwa [hstream, hsent]

/-- The stream is to be opened for the object: all of the group from there on waits. -/
theorem opens (h : Sound os s) (htook : Took s u x)
    (hstopped : u.writer.stoppedGroup = some x.groupId → x.object.groupStart = true) :
    Sound os (u.sendCame writer x
      (.waits (.opening x u.writer.epoch), { u.writer.endGroup with parkedOnHeader := true })) := by
  have hgone := gone_endGroup u.writer
  have hledger : Ledger u.writer := htook.writer.symm ▸ h.ledger
  have hhead : x ∈ s.queued := htook.queued ▸ List.mem_cons_self
  have hplaces := queued_places h.accounts h.places
  rw [htook.queued] at hplaces
  have hmem : ∀ y ∈ s.queued, y = x ∨ y ∈ u.queued := fun y hy =>
    List.mem_cons.mp (htook.queued ▸ hy)
  refine h.pop htook (htook.accounts.sendCame htook.order (.waits _, _)) rfl rfl rfl
    (fun y hy => (Option.some.inj hy).symm) hgone.mapping hgone.stoppedGroup (fun c hc => ?_)
    ⟨rfl, (epoch_endGroup u.writer).ge, hgone.stream⟩ { hgone.ledger hledger with }
  rw [current_of_opening hgone.stream rfl] at hc
  change c ∈ (if u.writer.epoch = u.writer.endGroup.epoch then some (x.groupId, x.place) else none)
    at hc
  rw [if_pos (epoch_endGroup u.writer).symm] at hc
  obtain rfl := Option.some.inj hc
  refine ⟨⟨x, h.within x hhead, rfl, rfl⟩, (List.pairwise_cons.mp hplaces).1, fun _ z hz hlt => ?_,
    ?_, fun _ floor hfloor hlt => ?_, fun _ _ z hz hgroup hle => ?_⟩
  · rcases h.lined.begins x hhead z hz hlt with ⟨floor, hfloor, hbelow⟩ | ⟨y, hy, hgroup, hfirst⟩
    · exact Or.inl ⟨floor, htook.floor.symm ▸ hfloor, hbelow⟩
    · refine Or.inr ⟨y, (hmem y hy).resolve_left ?_, hgroup, hfirst⟩
      rintro rfl
      exact absurd hgroup hlt.ne
  · intro hgroup
    have hgroup' : u.writer.stoppedGroup = some x.groupId := hgone.stoppedGroup ▸ hgroup
    have hnot := h.lined.notFirst x hhead (htook.writer ▸ hgroup')
    exact Bool.false_ne_true (hnot.symm.trans (hstopped hgroup'))
  · have hfloor' : floor ∈ s.floor := htook.floor ▸ hfloor
    exact absurd (h.accounts.floor x hhead floor hfloor') (not_le.mpr hlt)
  · rcases hmem z (h.lined.closed x hhead z hz hgroup hle) with rfl | hz
    · exact Or.inr (Or.inl rfl)
    · exact Or.inl hz

/-- The open stream is that of the head of the queue. -/
theorem group_of_head (h : Sound os s) (htook : Took s u x) {st : OpenStream}
    (hst : s.writer.stream = some st) (hstart : x.object.groupStart = false) :
    st.groupId = x.groupId := by
  have hcarries := h.carries_of hst
  have hhead : x ∈ s.queued := htook.queued ▸ List.mem_cons_self
  obtain ⟨opener, hopener, hgroup, hplace⟩ := hcarries.opener
  have hbehind := hcarries.behind x hhead
  have hle := h.ranked.ascends opener hopener x (h.within x hhead) (hplace ▸ hbehind.le)
  by_contra hne
  obtain ⟨z, hz, -, hsame⟩ := h.ranked.begun opener hopener x (h.within x hhead) hstart (by omega)
  rcases hcarries.begins htook.going z hz (by omega) with ⟨floor, hfloor, hlt⟩ |
    ⟨y, hy, hyGroup, hfirst⟩
  · have habove := h.accounts.floor x hhead floor hfloor
    omega
  · -- What waits behind the head is not the first of the head's own group.
    have hplaces := queued_places h.accounts h.places
    rw [htook.queued] at hy hplaces
    rcases List.mem_cons.mp hy with rfl | hy
    · exact Bool.false_ne_true (hstart.symm.trans hfirst)
    · refine h.ranked.first x (h.within x hhead) y ?_ ((List.pairwise_cons.mp hplaces).1 y hy) hfirst
        (by omega)
      exact h.within y (htook.queued ▸ List.mem_cons_of_mem _ hy)

/-- The object is handed to the open stream. -/
theorem writes (h : Sound os s) (htook : Took s u x) {st : OpenStream}
    (hst : u.writer.stream = some st) (hstart : x.object.groupStart = false) :
    Sound os (u.sendCame writer x
      (.waits (.object x u.writer.epoch st.sid), u.writer.putObject st x)) := by
  have hst' : s.writer.stream = some st := htook.writer ▸ hst
  have hgroup := h.group_of_head htook hst' hstart
  have hledger : Ledger u.writer := htook.writer.symm ▸ h.ledger
  refine h.pop htook (htook.accounts.sendCame htook.order (.waits _, _)) rfl rfl rfl
    (fun y hy => (Option.some.inj hy).symm) rfl rfl (fun c hc => ?_)
    ⟨rfl, le_rfl, fun _ => ⟨_, rfl, rfl, hgroup⟩, fun hne => absurd rfl hne⟩
    (hledger.putObject hst hgroup)
  obtain rfl := Option.some.inj hc
  refine (h.carries_of hst').pop htook hstart rfl rfl rfl (fun z hz hne => ?_)
    fun _ => Or.inr (Or.inl rfl)
  refine htook.kept (t := u.sendCame writer x
    (.waits (.object x u.writer.epoch st.sid), u.writer.putObject st x)) rfl hz hne ?_ id
  rintro ⟨st', hst', hsent⟩
  obtain rfl := Option.some.inj (hst.symm.trans hst')
  exact ⟨_, rfl, hsent⟩

/-- The object at the head of the queue goes to the writer. -/
theorem sends (h : Sound os s) (htook : Took s u x) (tr : Transport) :
    Sound os (u.sendCame writer x (u.writer.send x tr)) := by
  have haccounts : ∀ came, SendLane.Accounts (u.sendCame writer x came) :=
    htook.accounts.sendCame htook.order
  have hmapping : u.writer.mapping = .perGroup := htook.writer.symm ▸ h.perGroup
  have hledger : Ledger u.writer := htook.writer.symm ▸ h.ledger
  refine send_cases (P := fun came => Sound os (u.sendCame writer x came)) tr hmapping
    ?_ ?_ ?_ ?_ ?_ ?_
  · have hready := haccounts (.returns false, u.writer.resetGroup .cancelled)
    obtain ⟨hpop, hnone⟩ := h.pop_gone (t := { u with
      writer := u.writer.resetGroup .cancelled, through := u.through ++ [x], task := .ready })
      htook { hready with } rfl rfl rfl rfl (gone_resetGroup (.refl _) id .cancelled)
    exact hpop.skip_next hnone rfl x.groupId true (some x.groupId)
  · intro _
    have hgone := gone_endGroup u.writer
    exact (h.pop_gone (t := u.sendCame writer x (.returns false, u.writer.endGroup.exclude x)) htook
      (haccounts _) rfl rfl rfl rfl
      ⟨hgone.stream, hgone.stoppedGroup, hgone.mapping, fun h => { hgone.ledger h with }⟩).1
  · intro hstart
    refine h.pop_same htook hstart (haccounts (.returns false, u.writer.exclude x)) rfl rfl rfl rfl
      rfl rfl rfl rfl (fun z hz => List.mem_append_left _ hz) (fun st hst _ => ?_)
      { hledger with }
    exact Or.inr (Or.inr (Or.inr (List.mem_append_right _ List.mem_cons_self)))
  · intro hstart hstopped
    refine h.pop_same htook hstart (haccounts (.returns false, u.writer)) rfl rfl rfl rfl rfl rfl
      rfl rfl (fun _ hz => hz) (fun st hst hgroup => ?_) hledger
    refine absurd ?_ (h.carries_of (htook.writer ▸ hst)).notStopped
    rw [← hgroup, ← htook.writer]
    exact hstopped
  · exact fun _ hstopped => h.opens htook hstopped
  · exact fun st hst hstart => h.writes htook hst hstart

/-- The object at the head of the queue is dropped, or goes to the writer. -/
theorem takes (h : Sound os s) (htook : Took s u x) (now : ℚ) (tr : Transport) :
    Sound os (u.runItem writer x now tr) := by
  have hmapping : u.writer.mapping = .perGroup := htook.writer.symm ▸ h.perGroup
  unfold SendLane.runItem
  split_ifs
  · obtain ⟨e, heq, hgone⟩ := expire_gone hmapping x.groupId
    obtain ⟨hpop, hnone⟩ := h.pop_gone (t := { u with expired := u.expired + 1, writer := e })
      htook { htook.accounts with } rfl rfl rfl (by rw [SendLane.busy, htook.task]) hgone
    have hexpire : writer.expire u.writer x.groupId = (true, e) := heq
    rw [hexpire]
    exact hpop.skip_next hnone htook.task x.groupId true (some x.groupId)
  · exact h.sends htook tr
  · obtain ⟨hpop, hnone⟩ := h.pop_gone (t := { u with writer := u.writer.resetGroup .cancelled })
      htook { htook.accounts with } rfl rfl rfl (by rw [SendLane.busy, htook.task])
      (gone_resetGroup (.refl _) id .cancelled)
    exact hpop.skip_next hnone htook.task x.groupId false _

/-! ## A turn -/

/-- The task wakes, or goes to sleep. -/
theorem rests (h : Sound os s) (ht : t.Accounts) (hoffered : t.offered = s.offered)
    (hitems : t.items = s.items) (hfloor : t.floor = s.floor) (hstopped : t.stopped = s.stopped)
    (hwriter : t.writer = s.writer) (hs : s.busy = false) (hbusy : t.busy = false)
    (hended : ended s = false) : Sound os t := by
  have hqueued : t.queued = s.queued := by rw [SendLane.queued_eq, hitems, SendLane.queued_eq]
  have hflight : t.inFlight = s.inFlight := by
    rw [SendLane.inFlight_of_not_busy hbusy, SendLane.inFlight_of_not_busy hs]
  refine h.still ht (hoffered ▸ h.places) hqueued (hitems ▸ id) hfloor hstopped (fun _ => hended)
    (hflight ▸ h.flown) (congrArg _ hwriter) (congrArg _ hwriter) (fun c hc => ?_)
    (fun z hkept => ?_) (aloft_of_not_busy hbusy) (hwriter ▸ h.ledger)
  · rw [current_of_not_busy hbusy, hwriter] at hc
    rwa [current_of_not_busy hs]
  · unfold Carried at hkept ⊢
    rwa [hqueued, hflight, hwriter]

theorem turn (h : Sound os s) (now : ℚ) (tr : Transport) : Sound os (s.turn writer now tr) := by
  refine SendLane.turn_cases (P := fun t => Sound os t) h ?_
    (fun x await htask => h.goesOn htask tr) (fun await htask => h.ends htask tr)
    (fun _ => h.exited) ?_ (fun c items htask _ hitems => h.acts htask hitems tr)
    (fun x items htask hstopped hitems =>
      h.takes (Took.of_items h.accounts htask hstopped hitems) now tr)
  · intro htask
    exact h.rests (h.accounts.finished rfl rfl) rfl rfl rfl rfl rfl
      (by rw [SendLane.busy, htask]) rfl (by rw [ended, htask])
  · intro htask hitems
    have hready : s.busy = false := by rw [SendLane.busy, htask]
    have horder := h.accounts.order
    rw [SendLane.inFlight_of_not_busy hready] at horder
    exact h.rests { h.accounts with order := horder, awake := fun _ hne => absurd hitems hne }
      rfl rfl rfl rfl rfl hready rfl (by rw [ended, htask])

end Sound

end AioMoqt.Delivery
