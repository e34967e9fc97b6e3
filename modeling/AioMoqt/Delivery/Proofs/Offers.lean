import AioMoqt.Delivery.Proofs.Carrying

/-!
# Offers to a lane over a delivery

An object that is queued, shed, refused or written through keeps the invariant.
-/

namespace AioMoqt.Delivery

open SubgroupDelivery

variable {s t : DeliveryLane} {d : SubgroupDelivery} {os : List DeliveryItem} {x : DeliveryItem}
  {g p : Nat}

/-- The writer took one more object inline. -/
theorem Carries.taken (h : Carries os s g p) (hx : Follows os x)
    (hstart : x.object.groupStart = false) (hitems : t.items = s.items)
    (hfloor : t.floor = s.floor) (hstopped : t.stopped = s.stopped) (htask : t.task = s.task)
    (hgroup : t.writer.stoppedGroup = s.writer.stoppedGroup) (hkept : ∀ z, Carried s z → Carried t z)
    (htaken : Carried t x) : Carries (os ++ [x]) t g p := by
  have hqueued : t.queued = s.queued := by
    rw [SendLane.queued_eq, SendLane.queued_eq, hitems]
  have hended : ended t = ended s := by
    unfold ended
    rw [htask]
  have hmono := h.mono (hqueued ▸ h.behind) (fun hgoes => ⟨hstopped ▸ hgoes, fun g' hbegins => ?_⟩)
    hgroup ?_ ?_
  · exact hmono.offer hx (fun _ hfirst => absurd (hstart.symm.trans hfirst) Bool.false_ne_true)
      fun _ _ _ => htaken
  · unfold Begins at hbegins ⊢
    rwa [hfloor, hqueued]
  · rw [hended, hfloor, hitems]
    exact h.cut
  · rw [hended, hfloor]
    exact fun hgoes hle => ⟨hgoes, hle, fun z _ _ _ => hkept z⟩

namespace Sound

/-! ## Queueing -/

theorem place_lt (h : Sound os s) (hplace : x.place = os.length) : ∀ y ∈ os, y.place < x.place :=
  fun y hy => hplace ▸ h.ranked.bounded y hy

/-- The object is of a group below the floor. -/
theorem refuse (h : Sound os s) (hx : Follows os x) (hplace : x.place = os.length)
    (hbelow : ∃ floor ∈ s.floor, x.groupId < floor) : Sound (os ++ [x]) s where
  __ := h
  ranked := h.ranked.concat hx hplace
  within y hy := List.mem_append_left _ (h.within y hy)
  flown y hy := List.mem_append_left _ (h.flown y hy)
  lined := h.lined.pass hbelow h.accounts.floor
  carries c hc := by
    refine (h.carries c hc).offer hx (fun _ _ _ => Or.inl hbelow) fun _ hle hgroup => ?_
    obtain ⟨floor, hfloor, hlt⟩ := hbelow
    have hle' := hle floor hfloor
    omega

theorem put (h : Sound os s) (hx : Follows os x) (hplace : x.place = os.length)
    (horder : (s.through ++ s.inFlight.toList ++ s.queued ++ [x]).Sublist s.offered)
    (hfloor : ∀ floor ∈ s.floor, floor ≤ x.groupId) :
    Sound (os ++ [x]) ((s.count x).put (.item x)) := by
  have haccounts := h.accounts.put_item horder hfloor
  have hqueued := SendLane.queued_count_put s x
  rw [SendLane.count_eq] at haccounts hqueued ⊢
  exact {
    accounts := haccounts
    places := h.places
    ranked := h.ranked.concat hx hplace
    within := fun y hy => by
      rw [hqueued] at hy
      exact List.mem_append.mpr ((List.mem_append.mp hy).imp_left (h.within y))
    flown := fun y hy => List.mem_append_left _ (h.flown y hy)
    perGroup := h.perGroup
    lined := h.lined.push hx h.within (h.place_lt hplace) hqueued rfl rfl
    carries := fun c hc => by
      have hcarries := h.carries c hc
      have hlast : x ∈ s.queued ++ [x] := List.mem_append_right _ List.mem_cons_self
      have hmono := hcarries.mono (t := SendLane.put { s with
          bytes := s.bytes + liveBytes [x], replayBytes := s.replayBytes + replayedBytes [x],
          objects := s.objects + objectCount [x] } (.item x)) ?_ ?_ rfl ?_ ?_
      · refine hmono.offer hx (fun _ hstart _ => Or.inr ⟨x, ?_, rfl, hstart⟩)
          (fun _ _ _ => Or.inl ?_)
        · rw [hqueued]
          exact hlast
        · rw [hqueued]
          exact hlast
      · intro y hy
        rw [hqueued] at hy
        rcases List.mem_append.mp hy with hy | hy
        · exact hcarries.behind y hy
        · obtain ⟨opener, hopener, -, hplace'⟩ := hcarries.opener
          rw [List.mem_singleton.mp hy, ← hplace']
          exact h.place_lt hplace opener hopener
      · refine fun hgoes => ⟨hgoes, ?_⟩
        rintro g' (hbelow | ⟨y, hy, hstart⟩)
        · exact Or.inl hbelow
        · exact Or.inr ⟨y, by rw [hqueued]; exact List.mem_append_left _ hy, hstart⟩
      · exact fun hgoes floor hmem hlt => List.mem_append_left _ (hcarries.cut hgoes floor hmem hlt)
      · refine fun hgoes hle => ⟨hgoes, hle, ?_⟩
        rintro z _ _ _ (hz | hz)
        · exact Or.inl (by rw [hqueued]; exact List.mem_append_left _ hz)
        · exact Or.inr hz
    aloft := h.aloft
    ledger := h.ledger }

theorem enqueue (h : Sound os s) (hx : Follows os x) (hplace : x.place = os.length)
    (horder : (s.through ++ s.inFlight.toList ++ s.queued ++ [x]).Sublist s.offered)
    (hfloor : ∀ floor ∈ s.floor, floor ≤ x.groupId) (hstopped : s.stopped = false)
    (ans : OfferAnswers Transport) : Sound (os ++ [x]) (s.enqueue writer x ans) := by
  have haccounts := h.accounts.enqueue (W := writer) horder hfloor ans
  have hput := h.put hx hplace horder hfloor
  revert haccounts
  unfold SendLane.enqueue
  split_ifs
  · obtain ⟨cutAt, -, -, hsheds⟩ := SendLane.shedAt_sheds (W := writer)
      ((s.count x).put (.item x)) x.groupId ans
    refine fun haccounts => hput.sheds hsheds haccounts ?_
    rw [SendLane.count_eq]
    exact hstopped
  · exact fun _ => hput

/-! ## Writing through -/

/-- The open stream is that of the object, where nothing waits. -/
theorem group_eq (h : Sound os s) (hx : Follows os x) {st : OpenStream}
    (hst : s.writer.stream = some st) (hempty : s.queued = []) (hstopped : s.stopped = false)
    (hfloor : ∀ floor ∈ s.floor, floor ≤ x.groupId) (hstart : x.object.groupStart = false) :
    st.groupId = x.groupId := by
  have hcarries := h.carries_of hst
  obtain ⟨opener, hopener, hgroup, -⟩ := hcarries.opener
  have hle := hx.ascends opener hopener
  by_contra hne
  have hlt : st.groupId < x.groupId := by omega
  obtain ⟨w, hw, hsame⟩ := hx.begun hstart opener hopener (hgroup ▸ hlt)
  rcases hcarries.begins hstopped w hw (hsame ▸ hlt) with ⟨floor, hmem, hbelow⟩ | ⟨y, hy, -⟩
  · have hle' := hfloor floor hmem
    omega
  · rw [hempty] at hy
    exact absurd hy List.not_mem_nil

/-- The lane after an object that its writer took inline. -/
theorem inline (h : Sound os s) (hx : Follows os x) (hplace : x.place = os.length)
    (hidle : s.idle = true) (ht : t.Accounts) (hoffered : t.offered = s.offered)
    (hitems : t.items = s.items) (htask : t.task = s.task)
    (hmapping : t.writer.mapping = s.writer.mapping)
    (hstoppedGroup : ∀ g ∈ t.writer.stoppedGroup, g ∈ s.writer.stoppedGroup ∨ g = x.groupId)
    (hcarries : ∀ st ∈ t.writer.stream, Carries (os ++ [x]) t st.groupId st.opener)
    (hledger : Ledger t.writer) : Sound (os ++ [x]) t := by
  obtain ⟨hnil, hbusy⟩ := SendLane.idle_iff.mp hidle
  have hqueued : t.queued = [] := by rw [SendLane.queued_eq, hitems, hnil, List.filterMap_nil]
  have hbusy' : t.busy = false := by
    unfold SendLane.busy at hbusy ⊢
    rwa [htask]
  have hflight := SendLane.inFlight_of_not_busy hbusy'
  exact {
    accounts := ht
    places := hoffered ▸ h.places
    ranked := h.ranked.concat hx hplace
    within := fun y hy => by
      rw [hqueued] at hy
      exact absurd hy List.not_mem_nil
    flown := fun y hy => by
      rw [hflight] at hy
      simp at hy
    perGroup := hmapping.trans h.perGroup
    lined := by
      refine Lined.of_empty hqueued fun g hg => ?_
      rcases hstoppedGroup g hg with hg | rfl
      · obtain ⟨z, hz, hgroup⟩ := h.lined.stopped g hg
        exact ⟨z, List.mem_append_left _ hz, hgroup⟩
      · exact ⟨x, List.mem_append_right _ List.mem_cons_self, rfl⟩
    carries := fun c hc => by
      rw [current_of_not_busy hbusy'] at hc
      obtain ⟨st, hst, rfl⟩ := Option.mem_map.mp hc
      exact hcarries st hst
    aloft := aloft_of_not_busy hbusy'
    ledger := hledger }

end Sound

theorem inline_eq {nowait : SubgroupDelivery → DeliveryItem → Transport → Nowait × SubgroupDelivery}
    (h : s.inline? writer x = some nowait) : s.idle = true ∧ sendNowait = nowait := by
  unfold SendLane.inline? at h
  split_ifs at h with hidle
  exact ⟨hidle.1, Option.some.inj h⟩

/-- What `send_nowait` comes to. -/
theorem sendNowait_cases {P : Nowait × SubgroupDelivery → Prop} (tr : Transport)
    (waits : P (.waits, d))
    (excludes : ∀ st, d.stream = some st → x.object.groupStart = false → P (.returns false, d.exclude x))
    (fails : P (.raises .other, d))
    (stops : ∀ st, d.stream = some st → P (.returns false, { d with
      stoppedGroup := some x.groupId, stops := d.stops ++ [st.sid], stream := none }))
    (sends : ∀ st, d.stream = some st → x.object.groupStart = false →
      P (.returns true, (d.putObject st x).writeReturned st.sid x)) :
    P (d.sendNowait x tr) := by
  unfold sendNowait
  cases hstream : d.stream with
  | none => exact waits
  | some st =>
    dsimp only
    split_ifs with hstart hpasses hnext hencodes
    · exact waits
    · exact waits
    · exact fails
    · cases tr.outcome with
      | taken => exact sends st hstream (by simpa using (not_or.mp hstart).1)
      | full => exact waits
      | stopped => exact stops st hstream
      | raises e => exact fails
    · exact excludes st hstream (by simpa using (not_or.mp hstart).1)

namespace Sound

/-- The object is written through, or waits after all. -/
theorem nowaitCame (h : Sound os s) (hx : Follows os x) (hplace : x.place = os.length)
    (horder : (s.through ++ s.inFlight.toList ++ s.queued ++ [x]).Sublist s.offered)
    (hfloor : ∀ floor ∈ s.floor, floor ≤ x.groupId) (hstopped : s.stopped = false)
    (hidle : s.idle = true) (ans : OfferAnswers Transport) :
    Sound (os ++ [x]) (s.nowaitCame writer x ans (s.writer.sendNowait x ans.write)) := by
  obtain ⟨hnil, hbusy⟩ := SendLane.idle_iff.mp hidle
  have hqueued : s.queued = [] := by rw [SendLane.queued_eq, hnil, List.filterMap_nil]
  have hflight := SendLane.inFlight_of_not_busy hbusy
  have haccounts : ∀ came, SendLane.Accounts (s.nowaitCame writer x ans came) :=
    h.accounts.nowaitCame horder hfloor hqueued hflight ans
  refine sendNowait_cases (P := fun came => Sound (os ++ [x]) (s.nowaitCame writer x ans came))
    ans.write ?_ ?_ ?_ ?_ ?_
  · exact h.enqueue hx hplace horder hfloor hstopped ans
  · intro st hst hstart
    refine h.inline hx hplace hidle (haccounts _) rfl rfl rfl rfl (fun g hg => Or.inl hg) ?_
      { h.ledger with }
    intro st' hst'
    refine (h.carries_of hst').taken hx hstart rfl rfl rfl rfl rfl ?_ ?_
    · rintro z (hz | hz | hz | hz)
      · exact Or.inl hz
      · exact Or.inr (Or.inl hz)
      · exact Or.inr (Or.inr (Or.inl hz))
      · exact Or.inr (Or.inr (Or.inr (List.mem_append_left _ hz)))
    · exact Or.inr (Or.inr (Or.inr (List.mem_append_right _ List.mem_cons_self)))
  · -- The stream is reset, and the lane goes on past the group.
    have hwritten : SendLane.Accounts { s with
        writer := s.writer.resetGroup .cancelled, through := s.through ++ [x] } := by
      refine { h.accounts with order := ?_ }
      show (s.through ++ [x] ++ s.inFlight.toList ++ s.queued).Sublist s.offered
      rw [hflight, hqueued] at horder ⊢
      simpa using horder
    have hcleared : Sound (os ++ [x]) { s with
        writer := s.writer.resetGroup .cancelled, through := s.through ++ [x] } := by
      refine h.inline hx hplace hidle hwritten rfl rfl rfl rfl (fun g hg => Or.inl hg) ?_
        (h.ledger.resetGroup _)
      intro st hst
      simp [resetGroup] at hst
    have hskip := (hcleared.skip (current_of_not_busy hbusy) x.groupId true).1
    exact hskip.same (haccounts _) hskip.places rfl rfl rfl rfl (.refl _) hskip.ledger
  · intro st hst
    have hledger := h.ledger.stop x.groupId
    rw [hst] at hledger
    refine h.inline hx hplace hidle (haccounts _) rfl rfl rfl rfl (fun g hg => ?_) ?_ hledger
    · exact Or.inr (Option.some.inj hg).symm
    · intro st' hst'
      have hnone : (none : Option OpenStream) = some st' := hst'
      simp at hnone
  · intro st hst hstart
    have hgroup := h.group_eq hx hst hqueued hstopped hfloor hstart
    refine h.inline hx hplace hidle (haccounts _) rfl rfl rfl rfl (fun g hg => Or.inl hg) ?_
      { h.ledger.putObject hst hgroup with }
    intro st' hst'
    obtain rfl := Option.some.inj hst'
    refine (h.carries_of hst).taken hx hstart rfl rfl rfl rfl rfl ?_ ?_
    · rintro z (hz | hz | ⟨st', hst', hz⟩ | hz)
      · exact Or.inl hz
      · exact Or.inr (Or.inl hz)
      · obtain rfl := Option.some.inj (hst.symm.trans hst')
        exact Or.inr (Or.inr (Or.inl ⟨_, rfl, List.mem_append_left _ hz⟩))
      · exact Or.inr (Or.inr (Or.inr hz))
    · exact Or.inr (Or.inr (Or.inl ⟨_, rfl, List.mem_append_right _ List.mem_cons_self⟩))

theorem place (h : Sound os s) (hx : Follows os x) (hplace : x.place = os.length)
    (horder : (s.through ++ s.inFlight.toList ++ s.queued ++ [x]).Sublist s.offered)
    (hfloor : ∀ floor ∈ s.floor, floor ≤ x.groupId) (hstopped : s.stopped = false)
    (ans : OfferAnswers Transport) : Sound (os ++ [x]) (s.place writer x ans) := by
  unfold SendLane.place
  cases hinline : s.inline? writer x with
  | none => exact h.enqueue hx hplace horder hfloor hstopped ans
  | some nowait =>
    obtain ⟨hidle, rfl⟩ := inline_eq hinline
    exact h.nowaitCame hx hplace horder hfloor hstopped hidle ans

/-- The transport's backlog is read: nothing of the streams changes. -/
theorem probe_place (h : Sound os s) (hx : Follows os x) (hplace : x.place = os.length)
    (horder : (s.through ++ s.inFlight.toList ++ s.queued ++ [x]).Sublist s.offered)
    (hfloor : ∀ floor ∈ s.floor, floor ≤ x.groupId) (hstopped : s.stopped = false)
    (ans : OfferAnswers Transport) :
    Sound (os ++ [x]) ((s.probe writer x ans.probe).place writer x ans) := by
  obtain ⟨read, txBytes, probeGid, probeN, heq, hreads⟩ := SendLane.probe_reads (W := writer) s x
    ans.probe
  rw [heq]
  have hprobed : Sound os { s with writer := read, txBytes, probeGid, probeN } :=
    h.same { h.accounts with } h.places rfl rfl rfl rfl (same_reads hreads)
      (ledger_reads hreads h.ledger)
  exact hprobed.place hx hplace horder hfloor hstopped ans

theorem take (h : Sound os s) (hx : Follows os x) (hplace : x.place = os.length)
    (horder : (s.through ++ s.inFlight.toList ++ s.queued ++ [x]).Sublist s.offered)
    (hstopped : s.stopped = false) (ans : OfferAnswers Transport) :
    Sound (os ++ [x]) (s.take writer x ans) := by
  unfold SendLane.take
  by_cases hbelow : ∃ floor ∈ s.floor, x.groupId < floor
  · have hany : s.floor.any (x.groupId < ·) = true := by
      obtain ⟨floor, hfloor, hlt⟩ := hbelow
      rw [Option.mem_def.mp hfloor]
      exact decide_eq_true hlt
    have hrefused := h.refuse hx hplace hbelow
    rw [if_pos hany]
    split_ifs
    · exact hrefused.same { h.accounts with } h.places rfl rfl rfl rfl (.refl _) h.ledger
    · exact hrefused
  · have hfloor : ∀ floor ∈ s.floor, floor ≤ x.groupId := by
      intro floor hmem
      by_contra hlt
      exact hbelow ⟨floor, hmem, not_le.mp hlt⟩
    have hany : ¬ s.floor.any (x.groupId < ·) = true := by
      intro hany
      obtain ⟨floor, hmem, hlt⟩ := Option.any_eq_true _ _ |>.mp hany
      exact hbelow ⟨floor, hmem, of_decide_eq_true hlt⟩
    rw [if_neg hany]
    exact h.probe_place hx hplace horder hfloor hstopped ans

/-- An offer to a lane that has not ended. -/
theorem offer (h : Sound s.offered s) (hx : Follows s.offered x) (ans : OfferAnswers Transport) :
    Sound (s.offer writer x ans).offered (s.offer writer x ans) := by
  unfold SendLane.offer
  split_ifs with hclosed
  · exact h
  · have hx' : Follows s.offered { x with place := s.offered.length } := { hx with }
    have hplaces := (h.ranked.concat hx' rfl).places
    have hoffered : Sound s.offered { s with
        offered := s.offered ++ [{ x with place := s.offered.length }] } :=
      h.same { h.accounts with
        order := h.accounts.order.trans (List.sublist_append_left _ _) } hplaces rfl rfl rfl rfl
        (.refl _) h.ledger
    have htaken := hoffered.take hx' rfl (h.accounts.order.append_right _)
      (Bool.eq_false_iff.mpr (not_or.mp hclosed).1) ans
    have hframe := SendLane.frame_take (W := writer) { s with
      offered := s.offered ++ [{ x with place := s.offered.length }] }
      { x with place := s.offered.length } ans
    exact hframe.2 ▸ htaken

end Sound

end AioMoqt.Delivery
