import AioMoqt.Delivery.Proofs.WholeGroups

/-!
# What a FIN promises

Which steps give a stream its FIN, and that its whole group was sent by then.
-/

namespace AioMoqt.Delivery

open AioMoqt.Messages SubgroupDelivery

variable {s t u : DeliveryLane} {d e : SubgroupDelivery} {os : List DeliveryItem}
  {x : DeliveryItem} {await : DeliveryAwait}

/-! ## Where no stream gets its FIN -/

theorem fins_skip (s : DeliveryLane) (gid : Nat) (count : Bool) :
    (s.skip gid count).writer.fins = s.writer.fins := by
  rw [SendLane.writer_skip]

theorem fins_enqueue (s : DeliveryLane) (x : DeliveryItem) (ans : OfferAnswers Transport) :
    (s.enqueue writer x ans).writer.fins = s.writer.fins := by
  have hput : ((s.count x).put (.item x)).writer = s.writer := by
    rw [SendLane.count_eq]
    rfl
  unfold SendLane.enqueue
  split_ifs
  · obtain ⟨cutAt, -, -, hsheds⟩ := SendLane.shedAt_sheds (W := writer)
      ((s.count x).put (.item x)) x.groupId ans
    obtain ⟨read, hreads, hwriter⟩ := hsheds.writer
    have hread := (same_reads hreads).fins
    rw [hput] at hread
    rcases hwriter with heq | ⟨resets, heq⟩
    · rw [heq, hread]
    · rw [heq, ← hread]
      rcases resetBelow_cases read _ resets with hcleared | ⟨-, hsame⟩
      · exact hcleared.fins
      · exact hsame.fins
  · rw [hput]

theorem fins_place (s : DeliveryLane) (x : DeliveryItem) (ans : OfferAnswers Transport) :
    (s.place writer x ans).writer.fins = s.writer.fins := by
  unfold SendLane.place
  cases hinline : s.inline? writer x with
  | none => exact fins_enqueue s x ans
  | some nowait =>
    obtain ⟨-, rfl⟩ := inline_eq hinline
    refine sendNowait_cases (P := fun came =>
      (s.nowaitCame writer x ans came).writer.fins = s.writer.fins) ans.write ?_ ?_ ?_ ?_ ?_
    · exact fins_enqueue s x ans
    · exact fun _ _ _ => rfl
    · exact fins_skip { s with
        writer := s.writer.resetGroup .cancelled, through := s.through ++ [x] } x.groupId true
    · exact fun _ _ => rfl
    · exact fun _ _ _ => rfl

theorem fins_offer (s : DeliveryLane) (x : DeliveryItem) (ans : OfferAnswers Transport) :
    (s.offer writer x ans).writer.fins = s.writer.fins := by
  unfold SendLane.offer SendLane.take
  dsimp only
  split_ifs
  · rfl
  · rfl
  · rfl
  · obtain ⟨read, txBytes, probeGid, probeN, heq, hreads⟩ := SendLane.probe_reads (W := writer)
      { s with offered := s.offered ++ [{ x with place := s.offered.length }] }
      { x with place := s.offered.length } ans.probe
    rw [fins_place, heq]
    exact (same_reads hreads).fins

theorem fins_resume (s : DeliveryLane) (groupId : Nat) (rejoin : Bool) :
    (s.resume writer groupId rejoin).writer.fins = s.writer.fins := by
  unfold SendLane.resume
  dsimp only
  rw [SendLane.sweep_eq]
  split_ifs
  · rfl
  · exact fins_skip _ groupId false
  · rfl
  · rfl

/-- An event that is no turn of the task. -/
theorem fins_told (s : DeliveryLane) {event : DeliveryEvent}
    (hturn : ∀ now tr, event ≠ .turn now tr) :
    (SendLane.step writer s event).writer.fins = s.writer.fins := by
  cases event with
  | offer x ans => exact fins_offer s x ans
  | endGroup | endTrack largest | resetGroup groupId =>
    unfold SendLane.step SendLane.tell
    dsimp only
    split_ifs <;> rfl
  | closeStreams =>
    unfold SendLane.step SendLane.closeStreams
    dsimp only
    split_ifs <;> rfl
  | finish =>
    unfold SendLane.step SendLane.finish
    dsimp only
    split_ifs <;> rfl
  | resume groupId rejoin => exact fins_resume s groupId rejoin
  | gate isOpen | deadline value | cancel => rfl
  | stop =>
    unfold SendLane.step SendLane.stop
    dsimp only
    split_ifs <;> rfl
  | owner tr =>
    show (s.writer.called tr.owner).fins = _
    cases tr.owner <;> rfl
  | turn now tr => exact absurd rfl (hturn now tr)

/-! ## Where a stream gets its FIN -/

/-- No FIN, that of the open stream after its group, or that of a stream with the end of the track
only. -/
inductive Finishes (s t : DeliveryLane) : Prop
  | none (h : t.writer.fins = s.writer.fins)
  | group (st : OpenStream) (marker : Option (Nat × ObjectStatus)) (hst : s.writer.stream = some st)
      (hfins : t.writer.fins = s.writer.fins ++ [(st.sid, marker)])
      (hheaders : t.writer.headers = s.writer.headers)
      (hcomplete : Complete t ⟨st.sid, st.groupId, some st.opener⟩)
  | track (g : Nat) (marker : Option (Nat × ObjectStatus))
      (hfins : t.writer.fins = s.writer.fins ++ [(s.writer.streamCount, marker)])
      (hheaders : t.writer.headers = s.writer.headers ++ [⟨s.writer.streamCount, g, .none⟩])

/-- A new FIN is that of a stream whose group is complete. -/
theorem Finishes.complete (h : Finishes s t) (hledger : Ledger s.writer) {header : StreamHeader}
    (hheader : header ∈ t.writer.headers) (hfin : header.sid ∈ t.writer.fins.map Prod.fst)
    (hnew : header.sid ∉ s.writer.fins.map Prod.fst) : Complete t header := by
  cases h with
  | none h => exact absurd (h ▸ hfin) hnew
  | group st marker hst hfins hheaders hcomplete =>
    rw [hfins, List.map_append, List.map_singleton] at hfin
    have hsid : header.sid = st.sid :=
      List.mem_singleton.mp ((List.mem_append.mp hfin).resolve_left hnew)
    have hsame := List.inj_on_of_nodup_map hledger.sids (hheaders ▸ hheader)
      (hledger.header st hst) hsid
    exact hsame ▸ hcomplete
  | track g marker hfins hheaders =>
    rw [hfins, List.map_append, List.map_singleton] at hfin
    have hsid : header.sid = s.writer.streamCount :=
      List.mem_singleton.mp ((List.mem_append.mp hfin).resolve_left hnew)
    rw [hheaders] at hheader
    rcases List.mem_append.mp hheader with hold | hlast
    · exact absurd hsid (hledger.below header hold).ne
    · obtain rfl := List.mem_singleton.mp hlast
      intro opener hopener
      simp at hopener

namespace Sound

/-! ## The group of a FIN -/

/-- Where no CUT waits, nothing of the open stream's group was lost. -/
theorem complete (h : Sound s.offered s) (hready : s.task = .ready) {st : OpenStream}
    (hst : s.writer.stream = some st) (hcut : .control .cut ∉ s.items)
    (hoffered : t.offered = s.offered) (hsent : t.writer.sent = s.writer.sent)
    (hexcluded : ∀ z ∈ s.writer.excluded, z ∈ t.writer.excluded)
    (hqueued : ∀ z ∈ s.queued, z.groupId = st.groupId → z ∈ t.queued) :
    Complete t ⟨st.sid, st.groupId, some st.opener⟩ := by
  intro opener hopener z hz hgroup hle
  obtain rfl := Option.some.inj hopener
  have hcarries := h.carries_of hst
  have hgoing : ended s = false := by rw [ended, hready]
  have hfloor : ∀ floor ∈ s.floor, floor ≤ st.groupId := by
    intro floor hmem
    by_contra hlt
    exact hcut (hcarries.cut hgoing floor hmem (not_le.mp hlt))
  rcases hcarries.whole hgoing hfloor z (hoffered ▸ hz) hgroup hle with
    hwaits | hflight | ⟨st', hst', hsentOn⟩ | hout
  · exact Or.inr (Or.inr (hqueued z hwaits hgroup))
  · rw [SendLane.inFlight_of_ready hready] at hflight
    simp at hflight
  · obtain rfl := Option.some.inj (hst.symm.trans hst')
    exact Or.inl (hsent.symm ▸ hsentOn)
  · exact Or.inr (Or.inl (hexcluded z hout))

theorem finishes_endGroup (h : Sound s.offered s) (hready : s.task = .ready)
    (hcut : .control .cut ∉ s.items) (hoffered : t.offered = s.offered)
    (hfins : t.writer.fins = s.writer.endGroup.fins)
    (hheaders : t.writer.headers = s.writer.endGroup.headers)
    (hsent : t.writer.sent = s.writer.endGroup.sent)
    (hexcluded : ∀ z ∈ s.writer.endGroup.excluded, z ∈ t.writer.excluded)
    (hqueued : ∀ st, s.writer.stream = some st → ∀ z ∈ s.queued, z.groupId = st.groupId →
      z ∈ t.queued) : Finishes s t := by
  cases hstream : s.writer.stream with
  | none =>
    rw [endGroup_none hstream] at hfins
    exact .none hfins
  | some st =>
    obtain ⟨marker, heq⟩ := endGroup_some hstream
    rw [heq] at hfins hheaders hsent hexcluded
    exact .group st marker hstream hfins hheaders
      (h.complete hready hstream hcut hoffered hsent hexcluded (hqueued st hstream))

/-- No CUT waits behind the head of the queue. -/
theorem noCut (h : Sound os s) (hstopped : s.stopped = false)
    (hhead : s.items.head? ≠ some (.control .cut)) : .control .cut ∉ s.items := by
  cases hcut : s.cut with
  | false => exact h.accounts.noCut hcut
  | true => exact absurd (h.accounts.cut hcut hstopped) hhead

/-- What waits is of no older group than the head of the queue. -/
theorem none_waits (h : Sound os s) (htook : Took s u x) {st : OpenStream}
    (hst : s.writer.stream = some st) (hne : st.groupId ≠ x.groupId) :
    ∀ z ∈ s.queued, z.groupId ≠ st.groupId := by
  intro z hz hgroup
  have hcarries := h.carries_of hst
  have hhead : x ∈ s.queued := htook.queued ▸ List.mem_cons_self
  obtain ⟨opener, hopener, hsame, hplace⟩ := hcarries.opener
  have holder := h.ranked.ascends opener hopener x (h.within x hhead)
    (hplace ▸ hcarries.behind x hhead).le
  have hplaces := queued_places h.accounts h.places
  rw [htook.queued] at hplaces
  have hnewer : x.groupId ≤ z.groupId := by
    rcases List.mem_cons.mp (htook.queued ▸ hz) with rfl | hbehind
    · exact le_rfl
    · exact h.ranked.ascends x (h.within x hhead) z (h.within z hz)
        ((List.pairwise_cons.mp hplaces).1 z hbehind).le
  omega

/-- The first object of a group is not of the open stream's. -/
theorem group_ne (h : Sound os s) (htook : Took s u x) {st : OpenStream}
    (hst : s.writer.stream = some st) (hstart : x.object.groupStart = true) :
    st.groupId ≠ x.groupId := by
  have hcarries := h.carries_of hst
  have hhead : x ∈ s.queued := htook.queued ▸ List.mem_cons_self
  obtain ⟨opener, hopener, hsame, hplace⟩ := hcarries.opener
  exact hsame ▸ h.ranked.first opener hopener x (h.within x hhead)
    (hplace ▸ hcarries.behind x hhead) hstart

/-! ## A turn -/

/-- The write of an object ends no group. -/
theorem finishes_goesOn (h : Sound os s) (htask : s.task = .sending x await) (tr : Transport) :
    Finishes s (s.sendCame writer x (s.writer.goOn await tr)) := by
  have haloft := h.aloft
  rw [Aloft, htask] at haloft
  refine goOn_cases (P := fun came => Finishes s (s.sendCame writer x came)) haloft tr h.perGroup
    ?_ ?_ ?_ ?_ ?_ ?_
  · intro err e hsame _
    refine .none ?_
    cases err with
    | other => exact (fins_skip _ _ _).trans hsame.fins
    | datagramTooLarge | cancelled => exact hsame.fins
  · exact fun e _ hfins => .none hfins
  · exact .none rfl
  · exact fun _ _ => .none rfl
  · exact fun st e _ _ hsame _ => .none hsame.fins
  · exact fun _ _ _ => .none rfl

theorem finishes_ends (h : Sound os s) (htask : s.task = .ending await) (tr : Transport) :
    Finishes s (s.endCame (s.writer.goOn await tr)) := by
  have haloft := h.aloft
  rw [Aloft, htask] at haloft
  obtain ⟨⟨g, rfl⟩, -⟩ := haloft
  unfold goOn
  cases tr.outcome with
  | raises err => cases err <;> exact .none rfl
  | stopped => exact .none rfl
  | taken | full => exact .track g _ rfl rfl

theorem finishes_acts (h : Sound s.offered s) (hready : s.task = .ready)
    (hstopped : s.stopped = false) {c : Control} {items : List (LaneEntry DeliveryObject)}
    (hitems : s.items = .control c :: items) (tr : Transport) :
    Finishes s (SendLane.runControl writer { s with items } tr c) := by
  have hqueued := queued_of_control hitems
  have hcut : c ≠ .cut → .control .cut ∉ s.items := by
    intro hc
    refine h.noCut hstopped ?_
    rw [hitems, List.head?_cons]
    exact fun heq => hc (LaneEntry.control.inj (Option.some.inj heq))
  cases c with
  | cut =>
    obtain ⟨-, hcleared | ⟨-, hsame⟩⟩ := cut_cases s.writer s.floor tr
    · exact .none hcleared.fins
    · exact .none hsame.fins
  | endGroup | close =>
    exact h.finishes_endGroup hready (hcut (by simp)) rfl rfl rfl rfl (fun _ hz => hz)
      fun _ _ z hz _ => hqueued.symm ▸ hz
  | endTrack largest =>
    unfold SendLane.runControl
    split_ifs
    · refine endTrack_cases (P := fun came => Finishes s (SendLane.endCame { s with items } came)) tr
        h.perGroup (.none rfl) (fun st marker hst => ?_) (fun _ => .none rfl) fun _ _ => .none rfl
      exact .group st marker hst rfl rfl (h.complete hready hst (hcut (by simp)) rfl rfl
        (fun _ hz => hz) fun z hz _ => hqueued.symm ▸ hz)
    · exact .none rfl
  | resetGroup gid =>
    cases gid with
    | none => exact .none rfl
    | some gid => exact .none (fins_skip _ gid true)
  | final => exact .none rfl

theorem finishes_sends (h : Sound s.offered s) (htook : Took s u x) (tr : Transport)
    (hcut : .control .cut ∉ s.items) :
    Finishes s (u.sendCame writer x (u.writer.send x tr)) := by
  have hmapping : u.writer.mapping = .perGroup := htook.writer.symm ▸ h.perGroup
  have hnone : ∀ st, s.writer.stream = some st → x.object.groupStart = true →
      ∀ z ∈ s.queued, z.groupId ≠ st.groupId :=
    fun st hst hstart => h.none_waits htook hst (h.group_ne htook hst hstart)
  refine send_cases (P := fun came => Finishes s (u.sendCame writer x came)) tr hmapping
    ?_ ?_ ?_ ?_ ?_ ?_
  · refine .none ?_
    rw [← htook.writer]
    exact fins_skip _ _ _
  · intro hstart
    refine h.finishes_endGroup (t := u.sendCame writer x (.returns false, u.writer.endGroup.exclude x))
      htook.ready hcut htook.offered (congrArg (·.endGroup.fins) htook.writer)
      (congrArg (·.endGroup.headers) htook.writer) (congrArg (·.endGroup.sent) htook.writer)
      (fun z hz => List.mem_append_left _ (htook.writer.symm ▸ hz))
      fun st hst z hz hgroup => absurd hgroup (hnone st hst hstart z hz)
  · exact fun _ => .none (congrArg (·.fins) htook.writer)
  · exact fun _ _ => .none (congrArg (·.fins) htook.writer)
  · intro hlater _
    refine h.finishes_endGroup (t := u.sendCame writer x (.waits (.opening x u.writer.epoch),
      { u.writer.endGroup with parkedOnHeader := true })) htook.ready hcut htook.offered
      (congrArg (·.endGroup.fins) htook.writer) (congrArg (·.endGroup.headers) htook.writer)
      (congrArg (·.endGroup.sent) htook.writer) (fun z hz => htook.writer.symm ▸ hz)
      fun st hst z hz hgroup => absurd hgroup (hnone st hst (hlater ?_) z hz)
    rw [htook.writer, hst]
    rfl
  · exact fun st _ _ => .none (congrArg (·.fins) htook.writer)

theorem finishes_takes (h : Sound s.offered s) (htook : Took s u x) (now : ℚ) (tr : Transport) :
    Finishes s (u.runItem writer x now tr) := by
  have hmapping : u.writer.mapping = .perGroup := htook.writer.symm ▸ h.perGroup
  have hcut : .control .cut ∉ s.items := by
    refine h.noCut htook.going ?_
    rw [htook.items, List.head?_cons]
    simp
  unfold SendLane.runItem
  split_ifs
  · rcases expire_eq hmapping x.groupId with heq | ⟨hne, heq⟩
    · have hexpire : writer.expire u.writer x.groupId = (true, _) := heq
      rw [hexpire]
      refine .none ?_
      rw [← htook.writer]
      exact fins_skip _ x.groupId true
    · have hexpire : writer.expire u.writer x.groupId = (true, _) := heq
      have hskip := SendLane.writer_skip
        { u with expired := u.expired + 1, writer := u.writer.endGroup } x.groupId true
      have hshrinks := SendLane.Shrinks.skip
        { u with expired := u.expired + 1, writer := u.writer.endGroup } x.groupId true
      have hwriter := hskip.trans (congrArg (·.endGroup) htook.writer)
      rw [hexpire]
      refine h.finishes_endGroup (t := SendLane.next { SendLane.skip
        { u with expired := u.expired + 1, writer := u.writer.endGroup } x.groupId true with
          lost := some (x.groupId : Int) }) htook.ready hcut (hshrinks.offered.trans htook.offered)
        (congrArg (·.fins) hwriter) (congrArg (·.headers) hwriter) (congrArg (·.sent) hwriter)
        (fun z hz => ?_) fun st hst z hz hgroup => absurd hgroup
          (h.none_waits htook hst (hne st (htook.writer.symm ▸ hst)) z hz)
      have hsame : (SendLane.skip { u with expired := u.expired + 1, writer := u.writer.endGroup }
        x.groupId true).writer.excluded = s.writer.endGroup.excluded := congrArg (·.excluded) hwriter
      exact hsame.symm ▸ hz
  · exact h.finishes_sends htook tr hcut
  · refine .none ?_
    rw [← htook.writer]
    exact fins_skip _ _ _

/-- A turn of the task. -/
theorem finishes_turn (h : Sound s.offered s) (now : ℚ) (tr : Transport) :
    Finishes s (s.turn writer now tr) :=
  SendLane.turn_cases (P := Finishes s) (.none rfl) (fun _ => .none rfl)
    (fun _ _ htask => h.finishes_goesOn htask tr)
    (fun _ htask => h.finishes_ends htask tr) (fun _ => .none rfl) (fun _ _ => .none rfl)
    (fun _ _ htask hstopped hitems => h.finishes_acts htask hstopped hitems tr)
    fun _ _ htask hstopped hitems =>
      h.finishes_takes (Took.of_items h.accounts htask hstopped hitems) now tr

theorem finishes_step (h : Sound s.offered s) (event : DeliveryEvent) :
    Finishes s (SendLane.step writer s event) := by
  cases event with
  | turn now tr => exact h.finishes_turn now tr
  | _ => exact .none (fins_told s (by simp))

end Sound

/-- In every run of a source that numbers its objects, a stream that gets its FIN had all of its
group sent on it from the object that it was opened for, but for what the filter excludes and
what waits behind the FIN. -/
theorem complete_of_fin (writesNowait : Bool) (maxBytes : Int) (gate : Bool) (joined : Option Nat)
    (events : List DeliveryEvent) (event : DeliveryEvent)
    (hnumbered : Numbered (events.filterMap LaneEvent.item?)) :
    let s := SendLane.run writer (DeliveryLane.start writesNowait maxBytes gate joined) events
    let t := SendLane.step writer s event
    ∀ header ∈ t.writer.headers, header.sid ∈ t.writer.fins.map Prod.fst →
      header.sid ∉ s.writer.fins.map Prod.fst → Complete t header := by
  intro s t header hheader hfin hnew
  have hsound := sound_of_run writesNowait maxBytes gate joined hnumbered
  exact (hsound.finishes_step event).complete hsound.ledger hheader hfin hnew

theorem complete_of_fin_twoGroups :
    Complete (SendLane.step writer (SendLane.run writer (DeliveryLane.start true 10 true none)
      twoGroups) (.turn 0 {})) ⟨0, 0, some 0⟩ :=
  complete_of_fin true 10 true none twoGroups (.turn 0 {}) numbered_openers ⟨0, 0, some 0⟩
    List.mem_cons_self (by decide) (by decide)

end AioMoqt.Delivery
