import AioMoqt.Delivery.Proofs.Carrying

/-!
# What the source calls

Markers, the ends of a lane, a resume and what the owner of the delivery does keep the
invariant.
-/

namespace AioMoqt.Delivery

open SubgroupDelivery

variable {s : DeliveryLane} {os : List DeliveryItem}

namespace Sound

/-- A control item waits behind the rest. -/
theorem put_control (h : Sound os s) {c : Control} (hc : c ≠ .cut) :
    Sound os (s.put (.control c)) := by
  have hqueued := SendLane.queued_put_control (s := s) c
  exact h.still (h.accounts.put_control hc) h.places hqueued (List.mem_append_left _) rfl rfl id
    h.flown rfl rfl (fun _ => id)
    (fun z hkept => hkept.imp_left fun hz => hqueued ▸ hz) h.aloft h.ledger

theorem tell (h : Sound os s) {c : Control} (hc : c ≠ .cut) : Sound os (s.tell c) := by
  unfold SendLane.tell
  split_ifs
  · exact h
  · exact h.put_control hc

theorem closeStreams (h : Sound os s) : Sound os s.closeStreams := by
  unfold SendLane.closeStreams
  split_ifs
  · exact h
  · have hclosing : Sound os { s with closing := true } :=
      h.same { h.accounts with } h.places rfl rfl rfl rfl (.refl _) h.ledger
    exact hclosing.put_control (by simp)

theorem finish (h : Sound os s) : Sound os s.finish := by
  unfold SendLane.finish
  split_ifs
  · exact h
  · have hfinal : Sound os { s with final := true } :=
      h.same { h.accounts with } h.places rfl rfl rfl rfl (.refl _) h.ledger
    exact hfinal.put_control (by simp)

/-- A stopped lane has nothing left to write. -/
theorem stop (h : Sound os s) : Sound os s.stop := by
  have haccounts := h.accounts.stop
  unfold SendLane.stop at haccounts ⊢
  split_ifs at haccounts ⊢ with hstopped
  · exact h
  · exact {
      accounts := haccounts
      places := h.places
      ranked := h.ranked
      within := fun x hx => absurd hx List.not_mem_nil
      flown := fun x hx => by simp [SendLane.inFlight] at hx
      perGroup := h.perGroup
      lined := Lined.of_empty rfl h.lined.stopped
      carries := fun c hc => by
        rw [current_of_not_busy rfl] at hc
        obtain ⟨st, hst, rfl⟩ := Option.mem_map.mp hc
        exact (h.carries_of hst).mono (fun y hy => absurd hy List.not_mem_nil)
          (fun hgoes => absurd hgoes Bool.true_eq_false.mp) rfl
          (fun hgoes => absurd hgoes Bool.true_eq_false.mp)
          (fun hgoes => absurd hgoes Bool.true_eq_false.mp)
      aloft := trivial
      ledger := h.ledger }

/-- The streams are reset, and what is up to a group leaves the queue. -/
theorem rejoined (h : Sound os s) (groupId : Nat) :
    Sound os { s.sweep (fun x => x.groupId ≤ groupId) (SendLane.moot groupId) with
      writer := s.writer.resetGroup .cancelled } ∧
    current { s.sweep (fun x => x.groupId ≤ groupId) (SendLane.moot groupId) with
      writer := s.writer.resetGroup .cancelled } = none := by
  have haccounts := h.accounts.sweep (fun x => decide (x.groupId ≤ groupId))
    (SendLane.moot groupId) rfl
  have hqueued := SendLane.queued_sweep s (fun x => decide (x.groupId ≤ groupId))
    (SendLane.moot groupId)
  rw [SendLane.sweep_eq] at haccounts hqueued ⊢
  have hcleared := cleared_resetGroup s.writer .cancelled
  have hnone := current_cleared (t := { s with
    items := s.items.filter (LaneEntry.kept (fun x => decide (x.groupId ≤ groupId))
      (SendLane.moot groupId))
    writer := s.writer.resetGroup .cancelled }) h.aloft rfl hcleared
  refine ⟨h.unstreamed { haccounts with } rfl (fun x hx => ?_) h.flown rfl ?_ hnone
    (aloft_cleared h.aloft rfl hcleared) (h.ledger.resetGroup _), hnone⟩
  · have hx' := hqueued ▸ hx
    exact (List.mem_filter.mp hx').1
  · refine h.lined.filter (fun g => !decide (g ≤ groupId)) hqueued (fun g hg => ?_) rfl
    rcases hg with hg | hbelow
    · refine Or.inr fun x hx => ?_
      have hx' := (List.mem_filter.mp (hqueued ▸ hx)).2
      have hle : g ≤ groupId := by simpa using hg
      have hlt : groupId < x.groupId := by simpa using hx'
      omega
    · exact Or.inl hbelow

/-- A lane that nothing was lost of goes on with the group. -/
theorem lowered (h : Sound os s) (hnone : current s = none) {floor low : Nat}
    (hfloor : s.floor = some floor) (hlow : low ≤ floor) : Sound os { s with floor := some low } := by
  have habove : ∀ x ∈ s.queued, floor ≤ x.groupId := fun x hx => h.accounts.floor x hx _ hfloor
  refine h.unstreamed { h.accounts with floor := fun x hx f hf => ?_ } rfl (fun _ hx => hx) h.flown
    rfl ?_ hnone h.aloft h.ledger
  · obtain rfl := Option.some.inj hf
    exact hlow.trans (habove x hx)
  · refine h.lined.filter (fun _ => true) (by simp [SendLane.queued]) (fun g hg => ?_) rfl
    refine Or.inr fun x hx => ?_
    rcases hg with hg | ⟨f, hf, hlt⟩
    · simp at hg
    · obtain rfl := Option.some.inj (hfloor.symm.trans hf)
      exact hlt.le.trans (habove x hx)

theorem resume (h : Sound os s) (groupId : Nat) (rejoin : Bool) :
    Sound os (s.resume writer groupId rejoin) := by
  have hwriter : (s.sweep (fun x => decide (x.groupId ≤ groupId))
      (SendLane.moot groupId)).writer = s.writer := by rw [SendLane.sweep_eq]
  obtain ⟨hrejoined, hnone⟩ := h.rejoined groupId
  rw [← hwriter] at hrejoined hnone
  unfold SendLane.resume
  dsimp only
  split_ifs with hclosed hskip hfloor
  · exact h
  · exact (hrejoined.skip hnone groupId false).1
  · exact hrejoined.lowered hnone hfloor (Nat.le_succ _)
  · exact hrejoined

/-- A new filter, or the end of the subscription. -/
theorem owner (h : Sound os s) (tr : Transport) :
    Sound os { s with writer := s.writer.called tr.owner } := by
  cases tr.owner with
  | refilter passes excludesEnd =>
    exact h.same { h.accounts with } h.places rfl rfl rfl rfl ⟨rfl, rfl, rfl, rfl, rfl, rfl, rfl⟩
      { h.ledger with }
  | cancel => exact (h.cleared (cleared_resetGroup _ _) (h.ledger.resetGroup _)).1

end Sound

end AioMoqt.Delivery
