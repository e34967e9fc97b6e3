import AioMoqt.Delivery.Proofs.SendLane

/-!
# What dropping and shedding change

The queue, the floor and the writer after objects were dropped and groups were shed; the
rest of the lane is as it was.
-/

namespace AioMoqt.Delivery

namespace SendLane

variable {σ κ α ω : Type} {W : LaneWriter σ κ α ω} {s t : SendLane σ κ α} {x : LaneItem α}

/-- What is left of a queue below whose floor nothing is sent. -/
def above (floor : Nat) (items : List (LaneEntry α)) : List (LaneEntry α) :=
  items.filter (LaneEntry.kept (fun x => decide (x.groupId < floor)) fun _ => false)

theorem filterMap_above (floor : Nat) (items : List (LaneEntry α)) :
    (above floor items).filterMap LaneEntry.item? =
      (items.filterMap LaneEntry.item?).filter fun x => decide (floor ≤ x.groupId) := by
  rw [above, filterMap_kept]
  refine List.filter_congr fun x _ => ?_
  rw [← decide_not]
  exact decide_eq_decide.mpr not_lt

theorem mem_above_control {floor : Nat} {items : List (LaneEntry α)} {c : Control} :
    .control c ∈ above floor items ↔ .control c ∈ items := by
  simp [above, LaneEntry.kept]

theorem above_above {low high : Nat} (h : low ≤ high) (items : List (LaneEntry α)) :
    above high (above low items) = above high items := by
  rw [above, above, above, List.filter_filter]
  refine List.filter_congr fun entry _ => ?_
  cases entry with
  | item x =>
    simp only [LaneEntry.kept]
    by_cases hlt : x.groupId < high
    · simp [hlt]
    · simp [hlt, not_lt.mpr (h.trans (not_lt.mp hlt))]
  | control c => rfl

theorem dropBelow_eq (s : SendLane σ κ α) (floor : Nat) (count : Bool) :
    ∃ bytes replayBytes objects shed, s.dropBelow floor count =
      { s with items := above floor s.items, bytes, replayBytes, objects, shed } := by
  simp only [dropBelow, sweep_eq]
  exact ⟨_, _, _, _, rfl⟩

/-- The floor stays, or it is raised past the group. -/
theorem skip_eq (s : SendLane σ κ α) (gid : Nat) (count : Bool) :
    s.skip gid count = s ∧ (∃ floor ∈ s.floor, gid + 1 ≤ floor) ∨
      (∀ floor ∈ s.floor, floor < gid + 1) ∧ ∃ bytes replayBytes objects shed,
        s.skip gid count = { s with
          floor := some (gid + 1), items := above (gid + 1) s.items, bytes, replayBytes,
          objects, shed } := by
  unfold skip
  split_ifs with hfloor
  · right
    obtain ⟨bytes, replayBytes, objects, shed, heq⟩ :=
      dropBelow_eq { s with floor := some (gid + 1) } (gid + 1) count
    refine ⟨fun floor hmem => ?_, bytes, replayBytes, objects, shed, heq⟩
    have hsome : s.floor = some floor := hmem
    rw [hsome] at hfloor
    exact of_decide_eq_true hfloor
  · left
    refine ⟨rfl, ?_⟩
    cases hsome : s.floor with
    | none => simp [hsome] at hfloor
    | some floor =>
      refine ⟨floor, rfl, ?_⟩
      rw [hsome] at hfloor
      simpa using hfloor

theorem task_skip (s : SendLane σ κ α) (gid : Nat) (count : Bool) :
    (s.skip gid count).task = s.task := by
  rcases skip_eq s gid count with ⟨heq, -⟩ | ⟨-, bytes, replayBytes, objects, shed, heq⟩
  · rw [heq]
  · rw [heq]

theorem writer_skip (s : SendLane σ κ α) (gid : Nat) (count : Bool) :
    (s.skip gid count).writer = s.writer := by
  rcases skip_eq s gid count with ⟨heq, -⟩ | ⟨-, bytes, replayBytes, objects, shed, heq⟩
  · rw [heq]
  · rw [heq]

/-- The writer after its backlog was read. -/
inductive Reads (W : LaneWriter σ κ α ω) (writer : σ) : σ → Prop
  | refl : Reads W writer writer
  | read {read : σ} (h : Reads W writer read) (below : Option Nat) (ans : ω) :
      Reads W writer (W.txQueued read below ans).2

theorem Reads.trans {writer read later : σ} (h : Reads W writer read) (h' : Reads W read later) :
    Reads W writer later := by
  induction h' with
  | refl => exact h
  | read _ below ans ih => exact ih.read below ans

theorem probe_reads (s : SendLane σ κ α) (x : LaneItem α) (ans : ω) :
    ∃ read txBytes probeGid probeN,
      s.probe W x ans = { s with writer := read, txBytes, probeGid, probeN } ∧
        Reads W s.writer read := by
  unfold probe
  split_ifs
  · exact ⟨_, _, _, _, rfl, Reads.refl.read _ ans⟩
  · exact ⟨_, _, _, _, rfl, .refl⟩
  · exact ⟨_, _, _, _, rfl, .refl⟩

/-- What is below a group was dropped, and the backlog read. -/
structure Pruned (W : LaneWriter σ κ α ω) (low : Nat) (s t : SendLane σ κ α) : Prop where
  items : t.items = above low s.items
  floor : t.floor = s.floor
  cut : t.cut = s.cut
  task : t.task = s.task
  stopped : t.stopped = s.stopped
  offered : t.offered = s.offered
  reads : Reads W s.writer t.writer

theorem pruned_drop (s : SendLane σ κ α) (low : Nat) (below : Option Nat) (ans : ω) :
    Pruned W low s ((s.dropBelow low true).readTx W below ans) := by
  obtain ⟨bytes, replayBytes, objects, shed, hdrop⟩ := dropBelow_eq s low true
  rw [hdrop]
  exact ⟨rfl, rfl, rfl, rfl, rfl, rfl, Reads.refl.read below ans⟩

theorem Pruned.trans {u : SendLane σ κ α} {low high : Nat} (h : Pruned W low s t)
    (h' : Pruned W high t u) (hle : low ≤ high) : Pruned W high s u where
  items := by rw [h'.items, h.items, above_above hle]
  floor := h'.floor.trans h.floor
  cut := h'.cut.trans h.cut
  task := h'.task.trans h.task
  stopped := h'.stopped.trans h.stopped
  offered := h'.offered.trans h.offered
  reads := h.reads.trans h'.reads

theorem Pruned.queued {low : Nat} (h : Pruned W low s t) :
    t.queued = s.queued.filter fun x => decide (low ≤ x.groupId) := by
  rw [queued_eq, h.items, filterMap_above]
  rfl

/-- What a shed leaves where it cuts below a group. -/
structure Sheds (W : LaneWriter σ κ α ω) (s t : SendLane σ κ α) (cutAt : Nat) : Prop where
  floor : t.floor = some (s.floor.elim cutAt (max · cutAt))
  queued : t.queued = s.queued.filter fun x => decide (cutAt ≤ x.groupId)
  controls : ∀ c, .control c ∈ s.items → .control c ∈ t.items
  cut : .control .cut ∈ t.items ∨ s.cut = true
  task : t.task = s.task
  stopped : t.stopped = s.stopped
  offered : t.offered = s.offered
  writer : ∃ read, Reads W s.writer read ∧ (t.writer = read ∨
    ∃ ans, t.writer = W.resetBelow read (s.floor.elim cutAt (max · cutAt)) ans)

theorem freeHeader_eq (s : SendLane σ κ α) (floor : Nat) (ans : ω) :
    ∃ writer, s.freeHeader W floor ans = { s with writer } ∧
      (writer = s.writer ∨ writer = W.resetBelow s.writer floor ans) := by
  unfold freeHeader
  split_ifs
  · exact ⟨_, rfl, Or.inr rfl⟩
  · exact ⟨_, rfl, Or.inl rfl⟩

theorem putCut_eq (s : SendLane σ κ α) :
    ∃ cut items wake, s.putCut = { s with cut, items, wake } ∧
      (items = s.items ∧ s.cut = true ∨ items = .control .cut :: s.items) := by
  unfold putCut
  split_ifs with hcut
  · exact ⟨_, _, _, rfl, Or.inl ⟨rfl, hcut⟩⟩
  · exact ⟨_, _, _, rfl, Or.inr rfl⟩

theorem noteShed_eq (s : SendLane σ κ α) :
    ∃ shedding sheds, s.noteShed = { s with shedding, sheds } := by
  unfold noteShed
  split_ifs
  · exact ⟨_, _, rfl⟩
  · exact ⟨_, _, rfl⟩

theorem cutBelow_sheds (s : SendLane σ κ α) {cutAt : Nat}
    (hqueue : ∀ x ∈ s.queued, cutAt ≤ x.groupId) (ans : ω) :
    Sheds W s (s.cutBelow W cutAt ans) cutAt := by
  have hkept : s.queued.filter (fun x => decide (cutAt ≤ x.groupId)) = s.queued :=
    List.filter_eq_self.mpr fun x hx => decide_eq_true (hqueue x hx)
  unfold cutBelow
  dsimp only
  obtain ⟨writer, hfree, hwriter⟩ := freeHeader_eq (W := W)
    (s.raiseTo (s.floor.elim cutAt (max · cutAt))) (s.floor.elim cutAt (max · cutAt)) ans
  rw [hfree]
  obtain ⟨cut, items, wake, hput, hitems⟩ := putCut_eq
    { s.raiseTo (s.floor.elim cutAt (max · cutAt)) with writer }
  rw [hput]
  obtain ⟨shedding, sheds, hnote⟩ := noteShed_eq
    { s.raiseTo (s.floor.elim cutAt (max · cutAt)) with writer, cut, items, wake }
  rw [hnote]
  have hitems' : items = s.items ∧ s.cut = true ∨ items = .control .cut :: s.items := hitems
  refine { floor := rfl, queued := ?_, controls := ?_, cut := ?_, task := rfl, stopped := rfl,
           offered := rfl, writer := ⟨s.writer, .refl, hwriter.imp_right fun h => ⟨ans, h⟩⟩ }
  · rw [hkept]
    rcases hitems' with ⟨rfl, -⟩ | rfl
    · rfl
    · rfl
  · intro c hc
    rcases hitems' with ⟨rfl, -⟩ | rfl
    · exact hc
    · exact List.mem_cons_of_mem _ hc
  · rcases hitems' with ⟨rfl, hcut⟩ | rfl
    · exact Or.inr hcut
    · exact Or.inl List.mem_cons_self

theorem Sheds.of_pruned {u : SendLane σ κ α} {cutAt : Nat} (hpruned : Pruned W cutAt s t)
    (h : Sheds W t u cutAt) : Sheds W s u cutAt where
  floor := by rw [h.floor, hpruned.floor]
  queued := by
    rw [h.queued, hpruned.queued, List.filter_filter]
    simp only [Bool.and_self]
  controls c hc := h.controls c (by rw [hpruned.items]; exact mem_above_control.mpr hc)
  cut := hpruned.cut ▸ h.cut
  task := h.task.trans hpruned.task
  stopped := h.stopped.trans hpruned.stopped
  offered := h.offered.trans hpruned.offered
  writer := by
    obtain ⟨read, hreads, hwriter⟩ := h.writer
    rw [hpruned.floor] at hwriter
    exact ⟨read, hpruned.reads.trans hreads, hwriter⟩

theorem Pruned.sheds {cutAt : Nat} (h : Pruned W cutAt s t) (ans : ω) :
    Sheds W s (t.cutBelow W cutAt ans) cutAt := by
  refine Sheds.of_pruned h (cutBelow_sheds t (fun x hx => ?_) ans)
  rw [h.queued, List.mem_filter] at hx
  exact of_decide_eq_true hx.2

/-- A shed cuts below the group it is made at, or below the next. -/
theorem shedAt_sheds (s : SendLane σ κ α) (gid : Nat) (ans : OfferAnswers ω) :
    ∃ cutAt, gid ≤ cutAt ∧ cutAt ≤ gid + 1 ∧ Sheds W s (s.shedAt W gid ans) cutAt := by
  have hfirst := pruned_drop (W := W) s gid (some gid) ans.before
  unfold shedAt
  dsimp only
  split_ifs
  · have hsecond := pruned_drop (W := W) ((s.dropBelow gid true).readTx W (some gid) ans.before)
      (gid + 1) (some (gid + 1)) ans.after
    exact ⟨gid + 1, Nat.le_succ _, le_rfl, (hfirst.trans hsecond (Nat.le_succ _)).sheds _⟩
  · exact ⟨gid, le_rfl, Nat.le_succ _, hfirst.sheds _⟩

end SendLane

end AioMoqt.Delivery
