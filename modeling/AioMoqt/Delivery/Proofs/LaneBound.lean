import Mathlib.Algebra.Order.BigOperators.Group.List
import Mathlib.Algebra.Order.Ring.Nat
import AioMoqt.Delivery.Proofs.SendLane

/-!
# The bound of a send lane

Where groups ascend, the live objects that wait stay within the bound: past it the lane
drops the groups before the newest, and that one too where it alone is over the bound.
-/

namespace AioMoqt.Delivery

namespace SendLane

variable {σ κ α ω : Type} {W : LaneWriter σ κ α ω} {s t u : SendLane σ κ α} {x : LaneItem α}

/-- The lane takes no offers any more. -/
def closed (s : SendLane σ κ α) : Bool := s.stopped || s.final

/-- `t` comes of `s` with nothing new in the queue. -/
structure Shrinks (s t : SendLane σ κ α) : Prop where
  maxBytes : t.maxBytes = s.maxBytes
  offered : t.offered = s.offered
  queued : t.queued.Sublist s.queued
  txBytes : 0 ≤ s.txBytes → 0 ≤ t.txBytes
  closed : s.closed = true → t.closed = true

namespace Shrinks

theorem refl (s : SendLane σ κ α) : Shrinks s s := ⟨rfl, rfl, List.Sublist.refl _, id, id⟩

theorem trans (h : Shrinks s t) (h' : Shrinks t u) : Shrinks s u where
  maxBytes := h'.maxBytes.trans h.maxBytes
  offered := h'.offered.trans h.offered
  queued := h'.queued.trans h.queued
  txBytes := h'.txBytes ∘ h.txBytes
  closed := h'.closed ∘ h.closed

theorem sweep (s : SendLane σ κ α) (gone : LaneItem α → Bool) (moot : Control → Bool) :
    Shrinks s (s.sweep gone moot) := by
  have hqueued := queued_sweep s gone moot
  rw [sweep_eq] at hqueued ⊢
  refine ⟨rfl, rfl, ?_, id, id⟩
  rw [hqueued]
  exact List.filter_sublist

theorem dropBelow (s : SendLane σ κ α) (floor : Nat) (count : Bool) :
    Shrinks s (s.dropBelow floor count) := by
  have hsweep := sweep s (fun x => decide (x.groupId < floor)) fun _ => false
  exact { hsweep with }

theorem skip (s : SendLane σ κ α) (gid : Nat) (count : Bool) : Shrinks s (s.skip gid count) := by
  unfold SendLane.skip
  split_ifs
  · rw [dropBelow_floor]
    exact { dropBelow s (gid + 1) count with }
  · exact refl s

theorem stop (s : SendLane σ κ α) : Shrinks s s.stop := by
  unfold SendLane.stop
  split_ifs
  · exact refl s
  · exact ⟨rfl, rfl, List.nil_sublist _, fun _ => le_rfl, fun _ => rfl⟩

theorem readTx (s : SendLane σ κ α) (floor : Option Nat) (ans : ω) :
    Shrinks s (s.readTx W floor ans) :=
  ⟨rfl, rfl, List.Sublist.refl _, fun _ => Int.natCast_nonneg _, id⟩

theorem freeHeader (s : SendLane σ κ α) (floor : Nat) (ans : ω) :
    Shrinks s (s.freeHeader W floor ans) := by
  unfold SendLane.freeHeader
  split_ifs
  · exact ⟨rfl, rfl, List.Sublist.refl _, id, id⟩
  · exact refl s

theorem putCut (s : SendLane σ κ α) : Shrinks s s.putCut := by
  unfold SendLane.putCut
  split_ifs
  · exact refl s
  · exact ⟨rfl, rfl, List.Sublist.refl _, id, id⟩

theorem noteShed (s : SendLane σ κ α) : Shrinks s s.noteShed := by
  unfold SendLane.noteShed
  split_ifs
  · exact refl s
  · exact ⟨rfl, rfl, List.Sublist.refl _, id, id⟩

theorem cutBelow (s : SendLane σ κ α) (floor : Nat) (ans : ω) :
    Shrinks s (s.cutBelow W floor ans) := by
  have hraised : Shrinks s (s.raiseTo (s.floor.elim floor (max · floor))) :=
    ⟨rfl, rfl, List.Sublist.refl _, id, id⟩
  exact ((hraised.trans (freeHeader _ _ ans)).trans (putCut _)).trans (noteShed _)

theorem shedAt (s : SendLane σ κ α) (gid : Nat) (ans : OfferAnswers ω) :
    Shrinks s (s.shedAt W gid ans) := by
  have hread := (dropBelow s gid true).trans (readTx (W := W) _ (some gid) ans.before)
  unfold SendLane.shedAt
  dsimp only
  split_ifs
  · exact ((hread.trans (dropBelow _ _ _)).trans (readTx _ _ _)).trans (cutBelow _ _ _)
  · exact hread.trans (cutBelow _ _ _)

theorem failed (s : SendLane σ κ α) (x : LaneItem α) (e : SendError) :
    Shrinks s (s.failed W x e).2 := by
  cases e with
  | datagramTooLarge | cancelled => exact refl s
  | other =>
    have hskip := skip { s with writer := W.resetGroup s.writer } x.groupId true
    exact { hskip with }

theorem put_control (s : SendLane σ κ α) (c : Control) : Shrinks s (s.put (.control c)) := by
  refine ⟨rfl, rfl, ?_, id, id⟩
  rw [queued_put_control]

theorem tell (s : SendLane σ κ α) (c : Control) : Shrinks s (s.tell c) := by
  unfold SendLane.tell
  split_ifs
  · exact refl s
  · exact put_control s c

theorem resume (s : SendLane σ κ α) (groupId : Nat) (rejoin : Bool) :
    Shrinks s (s.resume W groupId rejoin) := by
  unfold SendLane.resume
  dsimp only
  have hswept := sweep s (fun x => decide (x.groupId ≤ groupId)) (moot groupId)
  have hreset : Shrinks s { s.sweep (fun x => decide (x.groupId ≤ groupId)) (moot groupId) with
      writer := W.resetGroup
        (s.sweep (fun x => decide (x.groupId ≤ groupId)) (moot groupId)).writer } := { hswept with }
  split_ifs
  · exact refl s
  · exact hreset.trans (skip _ groupId false)
  · exact { hreset with }
  · exact hreset

theorem sendCame (s : SendLane σ κ α) (x : LaneItem α) (came : Progress κ × σ) :
    Shrinks s (s.sendCame W x came) := by
  obtain ⟨result, writer⟩ := came
  cases result with
  | waits rest => exact ⟨rfl, rfl, List.Sublist.refl _, id, id⟩
  | returns sent => exact ⟨rfl, rfl, List.Sublist.refl _, id, id⟩
  | raises e =>
    cases e with
    | datagramTooLarge | cancelled => exact ⟨rfl, rfl, List.Sublist.refl _, id, id⟩
    | other =>
      have hfailed := failed (W := W) { s with
        writer, through := s.through ++ [x], task := (.ready : LaneTask κ α) } x .other
      exact { hfailed with }

theorem endCame (s : SendLane σ κ α) (came : Progress κ × σ) : Shrinks s (s.endCame came) := by
  obtain ⟨result, writer⟩ := came
  cases result with
  | waits rest => exact ⟨rfl, rfl, List.Sublist.refl _, id, id⟩
  | returns sent => exact ⟨rfl, rfl, List.Sublist.refl _, id, id⟩
  | raises e => cases e <;> exact ⟨rfl, rfl, List.Sublist.refl _, id, id⟩

theorem runItem (s : SendLane σ κ α) (x : LaneItem α) (now : ℚ) (ans : ω) :
    Shrinks s (s.runItem W x now ans) := by
  unfold SendLane.runItem
  split_ifs
  · rcases W.expire s.writer x.groupId with ⟨skips, writer⟩
    cases skips with
    | true =>
      have hskip := skip { s with expired := s.expired + 1, writer } x.groupId true
      exact { hskip with }
    | false => exact ⟨rfl, rfl, List.Sublist.refl _, id, id⟩
  · exact sendCame s x _
  · have hskip := skip { s with writer := W.resetGroup s.writer } x.groupId false
    exact { hskip with }

theorem runControl (s : SendLane σ κ α) (c : Control) (ans : ω) :
    Shrinks s (s.runControl W ans c) := by
  cases c with
  | cut | endGroup | close | final => exact ⟨rfl, rfl, List.Sublist.refl _, id, id⟩
  | endTrack largest =>
    unfold SendLane.runControl
    split_ifs
    · exact endCame s _
    · exact ⟨rfl, rfl, List.Sublist.refl _, id, id⟩
  | resetGroup gid =>
    cases gid with
    | none => exact ⟨rfl, rfl, List.Sublist.refl _, id, id⟩
    | some gid =>
      have hskip := skip { s with writer := W.resetGroup s.writer } gid true
      exact { hskip with }

theorem uncount (s : SendLane σ κ α) {items : List (LaneEntry α)}
    (hitems : s.items = .item x :: items) : Shrinks s ({ s with items }.uncount x) := by
  rw [uncount_eq]
  refine ⟨rfl, rfl, ?_, id, id⟩
  rw [queued_of_items hitems]
  exact List.sublist_cons_self _ _

theorem turn (s : SendLane σ κ α) (now : ℚ) (ans : ω) : Shrinks s (s.turn W now ans) := by
  refine turn_cases (refl s) (fun _ => ⟨rfl, rfl, List.Sublist.refl _, id, id⟩)
    (fun x _ _ => sendCame s x _) (fun _ _ => endCame s _)
    (fun _ => ⟨rfl, rfl, List.Sublist.refl _, id, id⟩)
    (fun _ _ => ⟨rfl, rfl, List.Sublist.refl _, id, id⟩) ?_ ?_
  · intro c items _ _ hitems
    have hqueued : s.queued = items.filterMap LaneEntry.item? := by
      rw [queued_eq, hitems, List.filterMap_cons_none rfl]
    have hpop : Shrinks s { s with items } := ⟨rfl, rfl, hqueued ▸ List.Sublist.refl _, id, id⟩
    exact hpop.trans (runControl _ c ans)
  · intro x items _ _ hitems
    exact (uncount s hitems).trans (runItem _ x now ans)

/-- Every step but an offer. -/
theorem step {event : LaneEvent α ω} (hoffer : event.item? = none) :
    Shrinks s (SendLane.step W s event) := by
  cases event with
  | offer x ans => exact absurd hoffer (by simp [LaneEvent.item?])
  | endGroup => exact tell s _
  | endTrack largest => exact tell s _
  | resetGroup groupId => exact tell s _
  | closeStreams =>
    unfold SendLane.step SendLane.closeStreams
    dsimp only
    split_ifs
    · exact refl s
    · have hput := put_control { s with closing := true } .close
      exact { hput with }
  | finish =>
    unfold SendLane.step SendLane.finish
    dsimp only
    split_ifs
    · exact refl s
    · have hput := put_control { s with final := true } .final
      exact { hput with closed := fun _ => Bool.or_true _ }
  | resume groupId rejoin => exact resume s groupId rejoin
  | gate isOpen => exact ⟨rfl, rfl, List.Sublist.refl _, id, id⟩
  | deadline value => exact ⟨rfl, rfl, List.Sublist.refl _, id, id⟩
  | stop => exact stop s
  | cancel => exact ⟨rfl, rfl, List.Sublist.refl _, id, id⟩
  | owner ans => exact ⟨rfl, rfl, List.Sublist.refl _, id, id⟩
  | turn now ans => exact turn s now ans

end Shrinks

/-! ## The bound -/

theorem liveBytes_le {xs ys : List (LaneItem α)} (h : xs.Sublist ys) :
    liveBytes xs ≤ liveBytes ys :=
  (h.map _).sum_le_sum fun _ _ => Nat.zero_le _

theorem Shrinks.bytes_le (hshrinks : Shrinks s t) (hs : Accounts s) (ht : Accounts t) :
    t.bytes ≤ s.bytes := by
  rw [hs.bytes, ht.bytes]
  exact_mod_cast liveBytes_le hshrinks.queued

theorem le_of_not_overBound (h : s.overBound = false) (htx : 0 ≤ s.txBytes) :
    s.bytes ≤ s.maxBytes := by
  have hle : s.bytes + s.txBytes ≤ s.maxBytes := by simpa [overBound] using h
  omega

theorem dropBelow_all {gid : Nat} (hgroups : ∀ y ∈ s.queued, y.groupId ≤ gid) (count : Bool) :
    (s.dropBelow (gid + 1) count).queued = [] := by
  rw [List.eq_nil_iff_forall_not_mem]
  intro y hy
  have hkept : y ∈ (s.sweep (fun x => decide (x.groupId < gid + 1)) fun _ => false).queued := hy
  rw [queued_sweep, List.mem_filter] at hkept
  have hle := hgroups y hkept.1
  have habove : gid + 1 ≤ y.groupId := by simpa using hkept.2
  omega

theorem queued_cut_of_empty (h : s.queued = []) {below : Option Nat} {floor : Nat} {read ans : ω} :
    ((s.readTx W below read).cutBelow W floor ans).queued = [] := by
  have hcut := (Shrinks.readTx (W := W) s below read).trans
    (Shrinks.cutBelow (W := W) _ floor ans)
  exact List.sublist_nil.mp (h ▸ hcut.queued)

/-- No group is newer than the one shed at. -/
theorem shedAt_le (h : Accounts s) {gid : Nat} (hgroups : ∀ y ∈ s.queued, y.groupId ≤ gid)
    (hmax : 0 ≤ s.maxBytes) (ans : OfferAnswers ω) : (s.shedAt W gid ans).bytes ≤ s.maxBytes := by
  have hshed := h.shedAt (W := W) gid ans
  have hread := (h.dropped gid true).readTx (W := W) (some gid) ans.before
  have hfirst := (Shrinks.dropBelow s gid true).trans
    (Shrinks.readTx (W := W) _ (some gid) ans.before)
  have hempty := dropBelow_all (fun y hy => hgroups y (hfirst.queued.subset hy)) true
  revert hshed
  unfold shedAt
  dsimp only
  split_ifs with hover
  · -- Only what is newer than the newest would stay.
    intro hshed
    rw [hshed.bytes, queued_cut_of_empty hempty]
    exact hmax
  · intro hshed
    have hcut := Shrinks.cutBelow (W := W) ((s.dropBelow gid true).readTx W (some gid) ans.before)
      gid ans.resets
    have hle := le_of_not_overBound (Bool.eq_false_iff.mpr hover) (Int.natCast_nonneg _)
    exact ((hcut.bytes_le hread hshed).trans hle).trans hfirst.maxBytes.le

theorem queued_count_put (s : SendLane σ κ α) (x : LaneItem α) :
    ((s.count x).put (.item x)).queued = s.queued ++ [x] := by
  rw [queued_put_item, count_eq]
  rfl

theorem enqueue_le (h : Accounts s)
    (horder : (s.through ++ s.inFlight.toList ++ s.queued ++ [x]).Sublist s.offered)
    (hfloor : ∀ floor ∈ s.floor, floor ≤ x.groupId) (hgroups : ∀ y ∈ s.queued, y.groupId ≤ x.groupId)
    (hmax : 0 ≤ s.maxBytes) (hle : s.bytes ≤ s.maxBytes) (htx : 0 ≤ s.txBytes)
    (ans : OfferAnswers ω) : (s.enqueue W x ans).bytes ≤ s.maxBytes := by
  have hput := h.put_item horder hfloor
  have hcount := count_eq s x
  have hputMax : ((s.count x).put (.item x)).maxBytes = s.maxBytes := by rw [hcount]; rfl
  unfold enqueue
  split_ifs with hover
  · rw [← hputMax]
    refine shedAt_le hput (fun y hy => ?_) (hputMax ▸ hmax) ans
    rw [queued_count_put] at hy
    rcases List.mem_append.mp hy with hy | hy
    · exact hgroups y hy
    · rw [List.mem_singleton.mp hy]
  · rw [not_and] at hover
    cases hlive : x.live with
    | true =>
      have hnot := Bool.eq_false_iff.mpr (hover hlive)
      rw [← hputMax]
      refine le_of_not_overBound hnot ?_
      rw [hcount]
      exact htx
    | false =>
      have hnothing : liveBytes [x] = 0 := by simp [liveBytes, hlive]
      rw [hcount]
      show s.bytes + liveBytes [x] ≤ _
      rw [hnothing]
      omega

theorem Shrinks.probe (s : SendLane σ κ α) (x : LaneItem α) (ans : ω) :
    Shrinks s (s.probe W x ans) := by
  unfold SendLane.probe
  split_ifs
  · exact ⟨rfl, rfl, List.Sublist.refl _, fun _ => Int.natCast_nonneg _, id⟩
  · exact ⟨rfl, rfl, List.Sublist.refl _, id, id⟩
  · exact refl s

theorem Shrinks.of_put (s : SendLane σ κ α) (x : LaneItem α) (ans : OfferAnswers ω) :
    Shrinks ((s.count x).put (.item x)) (s.enqueue W x ans) := by
  unfold enqueue
  split_ifs
  · exact shedAt _ _ ans
  · exact refl _

/-- What no operation changes: the bound, and the record of the offers. -/
def Frame (s t : SendLane σ κ α) : Prop := t.maxBytes = s.maxBytes ∧ t.offered = s.offered

theorem Shrinks.frame (h : Shrinks s t) : Frame s t := ⟨h.maxBytes, h.offered⟩

theorem frame_enqueue (s : SendLane σ κ α) (x : LaneItem α) (ans : OfferAnswers ω) :
    Frame s (s.enqueue W x ans) := by
  have hframe := (Shrinks.of_put (W := W) s x ans).frame
  rw [count_eq] at hframe
  exact hframe

theorem frame_place (s : SendLane σ κ α) (x : LaneItem α) (ans : OfferAnswers ω) :
    Frame s (s.place W x ans) := by
  unfold place
  cases s.inline? W x with
  | none => exact frame_enqueue s x ans
  | some nowait =>
    dsimp only
    obtain ⟨result, writer⟩ := nowait s.writer x ans.write
    cases result with
    | waits => exact frame_enqueue { s with writer } x ans
    | returns sent => exact ⟨rfl, rfl⟩
    | raises e =>
      cases e with
      | cancelled => exact ⟨rfl, rfl⟩
      | datagramTooLarge => exact (Shrinks.stop { s with writer, through := s.through ++ [x] }).frame
      | other =>
        exact (Shrinks.failed (W := W) { s with writer, through := s.through ++ [x] } x .other).frame

theorem frame_take (s : SendLane σ κ α) (x : LaneItem α) (ans : OfferAnswers ω) :
    Frame s (s.take W x ans) := by
  unfold take
  split_ifs
  · exact ⟨rfl, rfl⟩
  · exact ⟨rfl, rfl⟩
  · have hprobe := Shrinks.probe (W := W) s x ans.probe
    have hplace := frame_place (W := W) (s.probe W x ans.probe) x ans
    exact ⟨hplace.1.trans hprobe.maxBytes, hplace.2.trans hprobe.offered⟩

/-- Every item is recorded with its place. -/
theorem offered_offer (s : SendLane σ κ α) (x : LaneItem α) (ans : OfferAnswers ω) :
    (s.offer W x ans).offered =
      if s.stopped ∨ s.final then s.offered
      else s.offered ++ [{ x with place := s.offered.length }] := by
  unfold offer
  split_ifs
  · rfl
  · exact (frame_take (W := W) { s with
      offered := s.offered ++ [{ x with place := s.offered.length }] } _ ans).2

theorem maxBytes_offer (s : SendLane σ κ α) (x : LaneItem α) (ans : OfferAnswers ω) :
    (s.offer W x ans).maxBytes = s.maxBytes := by
  unfold offer
  split_ifs
  · rfl
  · exact (frame_take (W := W) { s with
      offered := s.offered ++ [{ x with place := s.offered.length }] } _ ans).1

theorem maxBytes_step (s : SendLane σ κ α) (event : LaneEvent α ω) :
    (step W s event).maxBytes = s.maxBytes := by
  cases hitem : event.item? with
  | none => exact (Shrinks.step (W := W) (s := s) hitem).maxBytes
  | some x =>
    cases event with
    | offer x' ans => exact maxBytes_offer s x' ans
    | _ => simp [LaneEvent.item?] at hitem

/-- A step records its offer at most. -/
theorem offered_step (s : SendLane σ κ α) (event : LaneEvent α ω) :
    ((step W s event).offered.map (·.groupId)).Sublist
      (s.offered.map (·.groupId) ++ event.item?.toList.map (·.groupId)) := by
  cases hitem : event.item? with
  | none =>
    rw [(Shrinks.step (W := W) (s := s) hitem).offered]
    exact List.sublist_append_left _ _
  | some x =>
    cases event with
    | offer x' ans =>
      obtain rfl := Option.some.inj hitem
      show ((s.offer W x' ans).offered.map _).Sublist _
      rw [offered_offer]
      split_ifs
      · exact List.sublist_append_left _ _
      · simp
    | _ => simp [LaneEvent.item?] at hitem

theorem offer_of_closed (h : s.closed = true) (x : LaneItem α) (ans : OfferAnswers ω) :
    s.offer W x ans = s := by
  unfold offer
  rw [if_pos (by simpa [closed] using h)]

/-- A lane that is still open has recorded the offer. -/
theorem offered_of_open {event : LaneEvent α ω} (hitem : event.item? = some x)
    (h : (step W s event).closed = false) :
    s.closed = false ∧
      (step W s event).offered.map (·.groupId) = s.offered.map (·.groupId) ++ [x.groupId] := by
  cases event with
  | offer y ans =>
    obtain rfl := Option.some.inj hitem
    have hopen : s.closed = false := by
      refine Bool.eq_false_iff.mpr fun hclosed => ?_
      have hstays : step W s (.offer y ans) = s := offer_of_closed hclosed y ans
      rw [hstays] at h
      exact Bool.false_ne_true (h.symm.trans hclosed)
    refine ⟨hopen, ?_⟩
    show (s.offer W y ans).offered.map _ = _
    rw [offered_offer, if_neg (by simpa [closed] using hopen), List.map_append, List.map_singleton]
  | _ => simp [LaneEvent.item?] at hitem

/-! ## Runs -/

/-- The live objects that wait are within the bound. -/
structure Within (s : SendLane σ κ α) : Prop where
  accounts : Accounts s
  maxBytes : 0 ≤ s.maxBytes
  bytes : s.bytes ≤ s.maxBytes
  txBytes : 0 ≤ s.txBytes

namespace Within

theorem shrinks (h : Within s) (hshrinks : Shrinks s t) (ht : Accounts t) : Within t where
  accounts := ht
  maxBytes := hshrinks.maxBytes ▸ h.maxBytes
  bytes := hshrinks.maxBytes ▸ (hshrinks.bytes_le h.accounts ht).trans h.bytes
  txBytes := hshrinks.txBytes h.txBytes

theorem enqueue (h : Within s)
    (horder : (s.through ++ s.inFlight.toList ++ s.queued ++ [x]).Sublist s.offered)
    (hfloor : ∀ floor ∈ s.floor, floor ≤ x.groupId) (hgroups : ∀ y ∈ s.queued, y.groupId ≤ x.groupId)
    (ans : OfferAnswers ω) : Within (s.enqueue W x ans) := by
  have hshrinks := Shrinks.of_put (W := W) s x ans
  have hmax : (s.enqueue W x ans).maxBytes = s.maxBytes := by
    rw [hshrinks.maxBytes, count_eq]
    rfl
  exact {
    accounts := h.accounts.enqueue horder hfloor ans
    maxBytes := hmax ▸ h.maxBytes
    bytes := hmax ▸ enqueue_le h.accounts horder hfloor hgroups h.maxBytes h.bytes h.txBytes ans
    txBytes := by
      refine hshrinks.txBytes ?_
      rw [count_eq]
      exact h.txBytes }

theorem place (h : Within s)
    (horder : (s.through ++ s.inFlight.toList ++ s.queued ++ [x]).Sublist s.offered)
    (hfloor : ∀ floor ∈ s.floor, floor ≤ x.groupId) (hgroups : ∀ y ∈ s.queued, y.groupId ≤ x.groupId)
    (ans : OfferAnswers ω) : Within (s.place W x ans) := by
  have haccounts := h.accounts.place (W := W) horder hfloor ans
  revert haccounts
  unfold SendLane.place
  cases hinline : s.inline? W x with
  | none => exact fun _ => h.enqueue horder hfloor hgroups ans
  | some nowait =>
    dsimp only
    obtain ⟨result, writer⟩ := nowait s.writer x ans.write
    cases result with
    | waits =>
      intro _
      have hwriter : Accounts { s with writer } := { h.accounts with }
      exact enqueue ⟨hwriter, h.maxBytes, h.bytes, h.txBytes⟩ horder hfloor hgroups ans
    | returns sent => exact h.shrinks ⟨rfl, rfl, List.Sublist.refl _, id, id⟩
    | raises e =>
      cases e with
      | cancelled => exact h.shrinks ⟨rfl, rfl, List.Sublist.refl _, id, id⟩
      | datagramTooLarge =>
        have hstop := Shrinks.stop { s with writer, through := s.through ++ [x] }
        exact h.shrinks { hstop with }
      | other =>
        have hfailed := Shrinks.failed (W := W) { s with writer, through := s.through ++ [x] } x .other
        exact h.shrinks { hfailed with }

theorem take (h : Within s)
    (horder : (s.through ++ s.inFlight.toList ++ s.queued ++ [x]).Sublist s.offered)
    (hgroups : ∀ y ∈ s.queued, y.groupId ≤ x.groupId) (ans : OfferAnswers ω) :
    Within (s.take W x ans) := by
  unfold SendLane.take
  split_ifs with hbelow
  · exact { h with accounts := { h.accounts with } }
  · exact h
  · have hshrinks := Shrinks.probe (W := W) s x ans.probe
    obtain ⟨writer, txBytes, probeGid, probeN, hprobe⟩ := probe_eq (W := W) s x ans.probe
    rw [hprobe] at hshrinks ⊢
    have hprobed : Within { s with writer, txBytes, probeGid, probeN } :=
      h.shrinks hshrinks { h.accounts with }
    refine hprobed.place horder (fun floor hfloor => ?_) hgroups ans
    by_contra hlt
    have hsome : s.floor = some floor := hfloor
    rw [hsome] at hbelow
    exact hbelow (decide_eq_true (not_le.mp hlt))

theorem offer (h : Within s) (hgroups : ∀ y ∈ s.offered, y.groupId ≤ x.groupId)
    (ans : OfferAnswers ω) : Within (s.offer W x ans) := by
  unfold SendLane.offer
  split_ifs
  · exact h
  · have hoffered : Within { s with
        offered := s.offered ++ [{ x with place := s.offered.length }] } :=
      { h with accounts := { h.accounts with
          order := h.accounts.order.trans (List.sublist_append_left _ _) } }
    refine hoffered.take (h.accounts.order.append_right _) (fun y hy => hgroups y ?_) ans
    exact h.accounts.order.subset (List.mem_append_right _ hy)

theorem step (h : Within s) {event : LaneEvent α ω}
    (hgroups : ∀ x ∈ event.item?, ∀ y ∈ s.offered, y.groupId ≤ x.groupId) :
    Within (step W s event) := by
  cases hitem : event.item? with
  | none => exact h.shrinks (Shrinks.step hitem) (h.accounts.step event)
  | some x =>
    cases event with
    | offer x' ans => exact h.offer (hgroups x' rfl) ans
    | _ => simp [LaneEvent.item?] at hitem

/-- Every offered group is at most those offered later. -/
theorem run (h : Within s) {events : List (LaneEvent α ω)}
    (hascends : (s.offered.map (·.groupId) ++
      (events.filterMap LaneEvent.item?).map (·.groupId)).Pairwise (· ≤ ·)) :
    Within (run W s events) ∧ (SendLane.run W s events).maxBytes = s.maxBytes := by
  induction events generalizing s with
  | nil => exact ⟨h, rfl⟩
  | cons event events ih =>
    have hsplit : (event :: events).filterMap LaneEvent.item? =
        event.item?.toList ++ events.filterMap LaneEvent.item? := by
      cases hitem : event.item? <;> simp [hitem]
    rw [hsplit, List.map_append, ← List.append_assoc] at hascends
    have hstep : Within (SendLane.step W s event) := by
      refine h.step fun x hx y hy => ?_
      have hbefore := (List.pairwise_append.mp (List.pairwise_append.mp hascends).1).2.2
      exact hbefore _ (List.mem_map_of_mem hy) _ (by rw [hx]; simp)
    obtain ⟨hwithin, hmax⟩ := ih hstep
      (hascends.sublist ((offered_step (W := W) s event).append_right _))
    exact ⟨hwithin, hmax.trans (maxBytes_step s event)⟩

end Within

/-- Where groups ascend, the live objects that wait never cost more than the bound. -/
theorem bytes_le_of_run (W : LaneWriter σ κ α ω) (writer : σ) {maxBytes : Int} (hmax : 0 ≤ maxBytes)
    (gate : Bool) (joined : Option Nat) {events : List (LaneEvent α ω)}
    (hascends : ((events.filterMap LaneEvent.item?).map (·.groupId)).Pairwise (· ≤ ·)) :
    (run W (start writer maxBytes gate joined) events).bytes ≤ maxBytes := by
  have hstart : Within (start writer maxBytes gate joined : SendLane σ κ α) :=
    ⟨accounts_start writer maxBytes gate joined, hmax, hmax, le_rfl⟩
  obtain ⟨hwithin, hbound⟩ := hstart.run (W := W) hascends
  exact hwithin.bytes.trans hbound.le

/-- A writer whose transport takes nothing. -/
def stalledWriter : LaneWriter Unit Unit Unit Unit where
  send _ _ _ := (.waits (), ())
  endTrack _ _ _ := (.waits (), ())
  goOn _ _ _ := (.waits (), ())
  sendNowait := none
  endGroup := id
  resetGroup := id
  resetBelow _ _ _ := ()
  closeStreams := id
  final := id
  txQueued _ _ _ := (0, ())
  expire _ _ := (true, ())
  opening _ := false
  owner _ _ := ()

theorem bytes_le_of_run_stalled :
    (run stalledWriter (start () 10 true none)
      [.offer ⟨0, 8, true, none, (), 0⟩ ⟨(), (), (), (), ()⟩,
        .offer ⟨1, 8, true, none, (), 0⟩ ⟨(), (), (), (), ()⟩]).bytes ≤ 10 :=
  bytes_le_of_run stalledWriter () (by decide) true none (by decide)

end SendLane

end AioMoqt.Delivery
