import AioMoqt.Delivery.Proofs.Calls
import AioMoqt.Delivery.Proofs.Offers
import AioMoqt.Delivery.Proofs.Writing

/-!
# A FIN stands for the whole group

The invariant over every run of a source that numbers its objects, and what it gives: a
stream gets its FIN once all of its group went out on it, each object the stream of its own
group, and every stream its end.
-/

namespace AioMoqt.Delivery

open AioMoqt.Messages SubgroupDelivery

variable {s t u : DeliveryLane} {d e : SubgroupDelivery} {os : List DeliveryItem}
  {x : DeliveryItem}

/-! ## Runs -/

theorem exists_group {xs ys : List DeliveryItem} {w : DeliveryItem}
    (h : xs.map (·.groupId) = ys.map (·.groupId)) (hw : w ∈ xs) :
    ∃ v ∈ ys, v.groupId = w.groupId := by
  have hmem := List.mem_map_of_mem (f := fun w : DeliveryItem => w.groupId) hw
  rw [h] at hmem
  exact List.mem_map.mp hmem

/-- Only the groups count of what came before. -/
theorem Follows.congr (h : Follows os x) {items : List DeliveryItem}
    (hgroups : items.map (·.groupId) = os.map (·.groupId)) : Follows items x where
  ascends w hw := by
    obtain ⟨v, hv, hsame⟩ := exists_group hgroups hw
    exact hsame ▸ h.ascends v hv
  first hstart w hw := by
    obtain ⟨v, hv, hsame⟩ := exists_group hgroups hw
    exact hsame ▸ h.first hstart v hv
  begun hstart w hw hlt := by
    obtain ⟨v, hv, hsame⟩ := exists_group hgroups hw
    obtain ⟨z, hz, hgroup⟩ := h.begun hstart v hv (hsame ▸ hlt)
    obtain ⟨y, hy, hyGroup⟩ := exists_group hgroups.symm hz
    exact ⟨y, hy, hyGroup.trans hgroup⟩

namespace Sound

/-- Every event but an offer. -/
theorem told (h : Sound os s) {event : DeliveryEvent} (hitem : event.item? = none) :
    Sound os (SendLane.step writer s event) := by
  cases event with
  | offer x ans => simp [LaneEvent.item?] at hitem
  | endGroup => exact h.tell (by simp)
  | endTrack largest => exact h.tell (by simp)
  | resetGroup groupId => exact h.tell (by simp)
  | closeStreams => exact h.closeStreams
  | finish => exact h.finish
  | resume groupId rejoin => exact h.resume groupId rejoin
  | gate isOpen | deadline value =>
    exact h.same { h.accounts with } h.places rfl rfl rfl rfl (.refl _) h.ledger
  | stop => exact h.stop
  | cancel => exact h.exited
  | owner tr => exact h.owner tr
  | turn now tr => exact h.turn now tr

theorem step (h : Sound s.offered s) {event : DeliveryEvent}
    (hfollows : ∀ x ∈ event.item?, SendLane.closed s = false → Follows s.offered x) :
    Sound (SendLane.step writer s event).offered (SendLane.step writer s event) := by
  cases hitem : event.item? with
  | none =>
    rw [(SendLane.Shrinks.step (W := writer) (s := s) hitem).offered]
    exact h.told hitem
  | some x =>
    cases event with
    | offer y ans =>
      obtain rfl := Option.some.inj hitem
      cases hclosed : SendLane.closed s with
      | true =>
        have hstays := SendLane.offer_of_closed (W := writer) hclosed y ans
        show Sound (s.offer writer y ans).offered (s.offer writer y ans)
        rw [hstays]
        exact h
      | false => exact h.offer (hfollows y rfl hclosed) ans
    | _ => simp [LaneEvent.item?] at hitem

/-- An open lane recorded all it was offered. -/
theorem run (h : Sound s.offered s) (past : List DeliveryItem) {events : List DeliveryEvent}
    (hpast : SendLane.closed s = false → s.offered.map (·.groupId) = past.map (·.groupId))
    (hnumbered : Numbered (past ++ events.filterMap LaneEvent.item?)) :
    Sound (SendLane.run writer s events).offered (SendLane.run writer s events) := by
  induction events generalizing s past with
  | nil => exact h
  | cons event events ih =>
    cases hitem : event.item? with
    | none =>
      rw [List.filterMap_cons_none hitem] at hnumbered
      have hshrinks := SendLane.Shrinks.step (W := writer) (s := s) hitem
      refine ih (h.step fun x hx => ?_) past (fun hopen => ?_) hnumbered
      · rw [hitem] at hx
        simp at hx
      · rw [hshrinks.offered]
        refine hpast (Bool.eq_false_iff.mpr fun hclosed => ?_)
        exact Bool.false_ne_true (hopen.symm.trans (hshrinks.closed hclosed))
    | some x =>
      rw [List.filterMap_cons_some hitem] at hnumbered
      refine ih (h.step fun y hy hopen => ?_) (past ++ [x]) (fun hopen => ?_)
        (by rwa [List.append_assoc])
      · rw [hitem] at hy
        obtain rfl := Option.some.inj hy
        exact (hnumbered _ _ _ rfl).congr (hpast hopen)
      · obtain ⟨hwasOpen, hoffered⟩ := SendLane.offered_of_open hitem hopen
        rw [hoffered, hpast hwasOpen, List.map_append, List.map_singleton]

end Sound

theorem sound_start (writesNowait : Bool) (maxBytes : Int) (gate : Bool) (joined : Option Nat) :
    Sound [] (DeliveryLane.start writesNowait maxBytes gate joined) where
  accounts := SendLane.accounts_start _ maxBytes gate joined
  places := List.Pairwise.nil
  ranked := .nil
  within x hx := absurd hx List.not_mem_nil
  flown x hx := by simp [SendLane.inFlight, DeliveryLane.start, SendLane.start] at hx
  perGroup := rfl
  lined := Lined.of_empty rfl (by simp [DeliveryLane.start, SendLane.start])
  carries c hc := by simp [current, DeliveryLane.start, SendLane.start] at hc
  aloft := trivial
  ledger := {
    own := by simp [DeliveryLane.start, SendLane.start]
    header := by simp [DeliveryLane.start, SendLane.start]
    sids := List.nodup_nil
    below := by simp [DeliveryLane.start, SendLane.start]
    ends := fun sid hsid => absurd hsid (Nat.not_lt_zero sid) }

theorem sound_of_run (writesNowait : Bool) (maxBytes : Int) (gate : Bool) (joined : Option Nat)
    {events : List DeliveryEvent} (hnumbered : Numbered (events.filterMap LaneEvent.item?)) :
    Sound (SendLane.run writer (DeliveryLane.start writesNowait maxBytes gate joined) events).offered
      (SendLane.run writer (DeliveryLane.start writesNowait maxBytes gate joined) events) :=
  (sound_start writesNowait maxBytes gate joined).run [] (fun _ => rfl) hnumbered

/-- Each object went to the one stream with the header of its group, and every stream that was
opened is open or has ended. -/
theorem ledger_of_run (writesNowait : Bool) (maxBytes : Int) (gate : Bool) (joined : Option Nat)
    {events : List DeliveryEvent} (hnumbered : Numbered (events.filterMap LaneEvent.item?)) :
    Ledger (SendLane.run writer
      (DeliveryLane.start writesNowait maxBytes gate joined) events).writer :=
  (sound_of_run writesNowait maxBytes gate joined hnumbered).ledger

/-- The first object of a group. -/
def groupOpener (groupId : Nat) : DeliveryItem :=
  { groupId, cost := 1, live := true,
    object := { objectId := 0, payloadLength := 1, groupStart := true } }

theorem numbered_openers : Numbered [groupOpener 0, groupOpener 1] := by
  intro before x after h
  rcases before with _ | ⟨w, _ | ⟨v, before⟩⟩
  · exact ⟨by simp, by simp, by simp⟩
  · obtain ⟨rfl, rfl, -⟩ : groupOpener 0 = w ∧ groupOpener 1 = x ∧ [] = after := by simpa using h
    exact ⟨by decide, by decide, by decide⟩
  · simp at h

/-- Two groups of one object: the stream of the first is opened and its object written, and the
second waits. -/
def twoGroups : List DeliveryEvent :=
  [.offer (groupOpener 0) ⟨{}, {}, {}, {}, {}⟩, .turn 0 {}, .turn 0 {}, .turn 0 {}, .turn 0 {},
    .offer (groupOpener 1) ⟨{}, {}, {}, {}, {}⟩]

theorem ledger_of_run_twoGroups :
    Ledger (SendLane.run writer (DeliveryLane.start true 10 true none) twoGroups).writer :=
  ledger_of_run true 10 true none numbered_openers

end AioMoqt.Delivery
