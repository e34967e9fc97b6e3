import Mathlib.Algebra.BigOperators.Group.List.Basic
import AioMoqt.Delivery.SendLane

/-!
# The accounts of a send lane

Its counters are sums over what waits, a CUT waits at the head of the queue only, and what
its writer is through with, what it writes and what waits were offered in that order.
-/

namespace AioMoqt.Delivery

/-! ## Sums -/

section sums

variable {α : Type} (x : LaneItem α) (xs ys : List (LaneItem α)) (p : LaneItem α → Bool)

theorem liveBytes_append : liveBytes (xs ++ ys) = liveBytes xs + liveBytes ys := by
  simp [liveBytes]

theorem replayedBytes_append : replayedBytes (xs ++ ys) = replayedBytes xs + replayedBytes ys := by
  simp [replayedBytes]

theorem objectCount_append : objectCount (xs ++ ys) = objectCount xs + objectCount ys := by
  simp [objectCount]

theorem liveBytes_cons : liveBytes (x :: xs) = liveBytes [x] + liveBytes xs :=
  liveBytes_append [x] xs

theorem replayedBytes_cons : replayedBytes (x :: xs) = replayedBytes [x] + replayedBytes xs :=
  replayedBytes_append [x] xs

theorem objectCount_cons : objectCount (x :: xs) = objectCount [x] + objectCount xs :=
  objectCount_append [x] xs

theorem liveBytes_filter :
    liveBytes (xs.filter p) + liveBytes (xs.filter fun x => !p x) = liveBytes xs := by
  rw [← liveBytes_append]
  exact ((List.filter_append_perm p xs).map _).sum_eq

theorem replayedBytes_filter :
    replayedBytes (xs.filter p) + replayedBytes (xs.filter fun x => !p x) = replayedBytes xs := by
  rw [← replayedBytes_append]
  exact ((List.filter_append_perm p xs).map _).sum_eq

theorem objectCount_filter :
    objectCount (xs.filter p) + objectCount (xs.filter fun x => !p x) = objectCount xs := by
  rw [← objectCount_append]
  exact ((List.filter_append_perm p xs).map _).sum_eq

end sums

namespace SendLane

variable {σ κ α ω : Type} {W : LaneWriter σ κ α ω} {s : SendLane σ κ α} {x : LaneItem α}

/-! ## What holds of a lane -/

/-- What holds of a lane at every moment. -/
structure Accounts (s : SendLane σ κ α) : Prop where
  bytes : s.bytes = liveBytes s.queued
  replayBytes : s.replayBytes = replayedBytes s.queued
  objects : s.objects = objectCount s.queued
  cut : s.cut = true → s.stopped = false → s.items.head? = some (.control .cut)
  noCut : s.cut = false → .control .cut ∉ s.items
  oneCut : .control .cut ∉ s.items.tail
  order : (s.through ++ s.inFlight.toList ++ s.queued).Sublist s.offered
  floor : ∀ x ∈ s.queued, ∀ floor ∈ s.floor, floor ≤ x.groupId
  awake : s.asleep = true → s.items ≠ [] → s.wake = true

/-! ## Counting -/

theorem uncount_eq (s : SendLane σ κ α) (x : LaneItem α) :
    s.uncount x = { s with
      bytes := s.bytes - liveBytes [x], replayBytes := s.replayBytes - replayedBytes [x],
      objects := s.objects - objectCount [x] } := by
  unfold uncount
  split_ifs with hcost hlive
  · simp [liveBytes, replayedBytes, objectCount, hcost]
  · simp [liveBytes, replayedBytes, objectCount, hcost, hlive]
  · simp [liveBytes, replayedBytes, objectCount, hcost, hlive]

theorem count_eq (s : SendLane σ κ α) (x : LaneItem α) :
    s.count x = { s with
      bytes := s.bytes + liveBytes [x], replayBytes := s.replayBytes + replayedBytes [x],
      objects := s.objects + objectCount [x] } := by
  unfold count
  split_ifs with hcost hlive
  · simp [liveBytes, replayedBytes, objectCount, hcost]
  · simp [liveBytes, replayedBytes, objectCount, hcost, hlive]
  · simp [liveBytes, replayedBytes, objectCount, hcost, hlive]

theorem foldl_uncount (s : SendLane σ κ α) (xs : List (LaneItem α)) :
    xs.foldl uncount s = { s with
      bytes := s.bytes - liveBytes xs, replayBytes := s.replayBytes - replayedBytes xs,
      objects := s.objects - objectCount xs } := by
  induction xs generalizing s with
  | nil => simp [liveBytes, replayedBytes, objectCount]
  | cons x xs ih =>
    rw [List.foldl_cons, ih, uncount_eq, liveBytes_cons x xs, replayedBytes_cons x xs,
      objectCount_cons x xs]
    simp only [Nat.cast_add, Int.sub_sub]

/-! ## The queue -/

@[simp] theorem queued_put_item : (s.put (.item x)).queued = s.queued ++ [x] := by
  simp [queued, put, LaneEntry.item?]

@[simp] theorem queued_put_control (c : Control) : (s.put (.control c)).queued = s.queued := by
  simp [queued, put, LaneEntry.item?]

theorem filterMap_kept (gone : LaneItem α → Bool) (moot : Control → Bool)
    (items : List (LaneEntry α)) :
    (items.filter (LaneEntry.kept gone moot)).filterMap LaneEntry.item? =
      (items.filterMap LaneEntry.item?).filter fun x => !gone x := by
  induction items with
  | nil => rfl
  | cons entry items ih =>
    cases entry with
    | item x => cases h : gone x <;> simp [LaneEntry.kept, LaneEntry.item?, h, ih]
    | control c =>
      rw [List.filterMap_cons_none rfl, ← ih]
      cases h : moot c
      · rw [List.filter_cons_of_pos (by simp [LaneEntry.kept, h]), List.filterMap_cons_none rfl]
      · rw [List.filter_cons_of_neg (by simp [LaneEntry.kept, h])]

theorem sweep_eq (s : SendLane σ κ α) (gone : LaneItem α → Bool) (moot : Control → Bool) :
    s.sweep gone moot = { s with
      items := s.items.filter (LaneEntry.kept gone moot)
      bytes := s.bytes - liveBytes (s.queued.filter gone)
      replayBytes := s.replayBytes - replayedBytes (s.queued.filter gone)
      objects := s.objects - objectCount (s.queued.filter gone) } := by
  unfold sweep
  rw [foldl_uncount]

theorem queued_sweep (s : SendLane σ κ α) (gone : LaneItem α → Bool) (moot : Control → Bool) :
    (s.sweep gone moot).queued = s.queued.filter fun x => !gone x := by
  rw [sweep_eq]
  exact filterMap_kept gone moot s.items

theorem dropBelow_floor (s : SendLane σ κ α) (raised : Option Nat) (floor : Nat) (count : Bool) :
    { s with floor := raised }.dropBelow floor count =
      { s.dropBelow floor count with floor := raised } := by
  simp only [dropBelow, sweep_eq]
  rfl

theorem floor_dropBelow (s : SendLane σ κ α) (floor : Nat) (count : Bool) :
    (s.dropBelow floor count).floor = s.floor := by
  simp only [dropBelow, sweep_eq]

theorem queued_eq (s : SendLane σ κ α) : s.queued = s.items.filterMap LaneEntry.item? := rfl

theorem sweep_bytes (h : s.bytes = liveBytes s.queued) (gone : LaneItem α → Bool)
    (moot : Control → Bool) : (s.sweep gone moot).bytes = liveBytes (s.sweep gone moot).queued := by
  have hparts := liveBytes_filter s.queued gone
  rw [queued_sweep, sweep_eq]
  show s.bytes - _ = _
  omega

theorem sweep_replayBytes (h : s.replayBytes = replayedBytes s.queued) (gone : LaneItem α → Bool)
    (moot : Control → Bool) :
    (s.sweep gone moot).replayBytes = replayedBytes (s.sweep gone moot).queued := by
  have hparts := replayedBytes_filter s.queued gone
  rw [queued_sweep, sweep_eq]
  show s.replayBytes - _ = _
  omega

theorem sweep_objects (h : s.objects = objectCount s.queued) (gone : LaneItem α → Bool)
    (moot : Control → Bool) :
    (s.sweep gone moot).objects = objectCount (s.sweep gone moot).queued := by
  have hparts := objectCount_filter s.queued gone
  rw [queued_sweep, sweep_eq]
  show s.objects - _ = _
  omega

theorem mem_tail_concat {entry e : LaneEntry α} {items : List (LaneEntry α)}
    (h : entry ∈ (items ++ [e]).tail) : entry ∈ items.tail ∨ entry = e := by
  cases items with
  | nil => simp at h
  | cons first items => simpa using h

theorem mem_tail_of_filter {entry : LaneEntry α} {p : LaneEntry α → Bool}
    {items : List (LaneEntry α)} (h : entry ∈ (items.filter p).tail) : entry ∈ items.tail := by
  cases items with
  | nil => simp at h
  | cons first items =>
    rw [List.filter_cons] at h
    split_ifs at h
    · exact (List.mem_filter.mp h).1
    · exact (List.mem_filter.mp (List.mem_of_mem_tail h)).1

theorem head?_filter {entry : LaneEntry α} {p : LaneEntry α → Bool} {items : List (LaneEntry α)}
    (h : items.head? = some entry) (hp : p entry = true) : (items.filter p).head? = some entry := by
  cases items with
  | nil => simp at h
  | cons first items =>
    obtain rfl := Option.some.inj h
    rw [List.filter_cons_of_pos hp, List.head?_cons]

/-! ## What an offer reads -/

theorem idle_iff : s.idle = true ↔ s.items = [] ∧ s.busy = false := by
  simp [idle]

theorem inFlight_of_not_busy (h : s.busy = false) : s.inFlight = none := by
  unfold busy at h
  unfold inFlight
  cases htask : s.task with
  | sending x rest => rw [htask] at h; exact absurd h Bool.true_eq_false.mp
  | ready | waiting | ending _ | exited => rfl

/-- Nothing waits and nothing is being written where an object is written through. -/
theorem queued_of_inline {nowait : σ → LaneItem α → ω → Nowait × σ}
    (h : s.inline? W x = some nowait) : s.queued = [] ∧ s.inFlight = none := by
  unfold inline? at h
  split_ifs at h with hidle
  obtain ⟨hitems, hbusy⟩ := idle_iff.mp hidle.1
  exact ⟨by rw [queued_eq, hitems]; rfl, inFlight_of_not_busy hbusy⟩

/-- A probe leaves all but what it reads as it was. -/
theorem probe_eq (s : SendLane σ κ α) (x : LaneItem α) (ans : ω) :
    ∃ writer txBytes probeGid probeN,
      s.probe W x ans = { s with writer, txBytes, probeGid, probeN } := by
  unfold probe
  split_ifs <;> exact ⟨_, _, _, _, rfl⟩

/-! ## A turn of the task -/

section turn

variable {now : ℚ} {ans : ω} {items : List (LaneEntry α)} {rest : κ}

theorem inFlight_of_sending (htask : s.task = .sending x rest) : s.inFlight = some x := by
  simp only [inFlight, htask]

theorem inFlight_of_ready (htask : s.task = .ready) : s.inFlight = none := by
  simp only [inFlight, htask]

theorem queued_of_items (hitems : s.items = .item x :: items) :
    s.queued = x :: queued { s with items } := by
  rw [queued_eq, hitems]
  rfl

/-- What a turn of the task can be. -/
theorem turn_cases {P : SendLane σ κ α → Prop} (stays : P s)
    (wakes : s.task = .waiting → P { s with task := .ready })
    (goesOn : ∀ x rest, s.task = .sending x rest → P (s.sendCame W x (W.goOn s.writer rest ans)))
    (ends : ∀ rest, s.task = .ending rest → P (s.endCame (W.goOn s.writer rest ans)))
    (leaves : s.task = .ready → P { s with task := .exited })
    (sleeps : s.task = .ready → s.items = [] →
      P { s with shedding := false, wake := false, task := .waiting })
    (acts : ∀ c items, s.task = .ready → s.stopped = false → s.items = .control c :: items →
      P ({ s with items }.runControl W ans c))
    (takes : ∀ x items, s.task = .ready → s.stopped = false → s.items = .item x :: items →
      P (({ s with items }.uncount x).runItem W x now ans)) :
    P (s.turn W now ans) := by
  cases htask : s.task with
  | exited => simpa only [turn, htask] using stays
  | waiting =>
    have hturn : s.turn W now ans = if s.wake then { s with task := .ready } else s := by
      simp only [turn, htask]
    rw [hturn]
    split_ifs
    · exact wakes htask
    · exact stays
  | sending x rest => simpa only [turn, htask] using goesOn x rest htask
  | ending rest => simpa only [turn, htask] using ends rest htask
  | ready =>
    cases hstopped : s.stopped with
    | true => simpa only [turn, htask, hstopped, if_true] using leaves htask
    | false =>
      cases hitems : s.items with
      | nil =>
        have hturn : s.turn W now ans =
            { s with shedding := false, wake := false, task := .waiting } := by
          simp only [turn, htask, hstopped, hitems, Bool.false_eq_true, if_false]
        exact hturn ▸ sleeps htask hitems
      | cons entry items =>
        cases entry with
        | control c =>
          have hturn : s.turn W now ans = { s with items }.runControl W ans c := by
            simp only [turn, htask, hstopped, hitems, Bool.false_eq_true, if_false]
          exact hturn ▸ acts c items htask hstopped hitems
        | item x =>
          have hturn : s.turn W now ans = ({ s with items }.uncount x).runItem W x now ans := by
            simp only [turn, htask, hstopped, hitems, Bool.false_eq_true, if_false]
          exact hturn ▸ takes x items htask hstopped hitems

end turn

/-! ## What each operation keeps -/

namespace Accounts

theorem put_control (h : Accounts s) {c : Control} (hc : c ≠ .cut) :
    Accounts (s.put (.control c)) where
  bytes := by
    rw [queued_put_control]
    exact h.bytes
  replayBytes := by
    rw [queued_put_control]
    exact h.replayBytes
  objects := by
    rw [queued_put_control]
    exact h.objects
  cut hcut hstopped := by
    have hhead := h.cut hcut hstopped
    show (s.items ++ _).head? = _
    rw [List.head?_append, hhead, Option.some_or]
  noCut hcut hmem := by
    rcases List.mem_append.mp hmem with hmem | hmem
    · exact h.noCut hcut hmem
    · exact hc (LaneEntry.control.inj (List.mem_singleton.mp hmem)).symm
  oneCut hmem := by
    rcases mem_tail_concat hmem with hmem | hmem
    · exact h.oneCut hmem
    · exact hc (LaneEntry.control.inj hmem).symm
  order := by
    rw [queued_put_control]
    exact h.order
  floor := by
    rw [queued_put_control]
    exact h.floor
  awake _ _ := rfl

theorem sweep (h : Accounts s) (gone : LaneItem α → Bool) (moot : Control → Bool)
    (hmoot : moot .cut = false) : Accounts (s.sweep gone moot) where
  bytes := sweep_bytes h.bytes gone moot
  replayBytes := sweep_replayBytes h.replayBytes gone moot
  objects := sweep_objects h.objects gone moot
  cut := by
    rw [sweep_eq]
    intro hcut hstopped
    exact head?_filter (h.cut hcut hstopped) (by rw [LaneEntry.kept, hmoot]; rfl)
  noCut := by
    rw [sweep_eq]
    intro hcut hmem
    exact h.noCut hcut (List.mem_filter.mp hmem).1
  oneCut := by
    rw [sweep_eq]
    exact fun hmem => h.oneCut (mem_tail_of_filter hmem)
  order := by
    rw [queued_sweep, sweep_eq]
    exact (List.filter_sublist.append_left _).trans h.order
  floor := by
    rw [queued_sweep, sweep_eq]
    exact fun x hx => h.floor x (List.mem_filter.mp hx).1
  awake := by
    rw [sweep_eq]
    intro hasleep hitems
    refine h.awake hasleep fun hnil => hitems ?_
    show s.items.filter _ = []
    rw [hnil, List.filter_nil]

/-- The floor is raised after what is below it was dropped. -/
theorem dropBelow (h : Accounts s) (floor : Nat) (raised : Option Nat) (count : Bool)
    (hfloor : ∀ f ∈ raised, f ≤ floor ∨ f ∈ s.floor) :
    Accounts { s.dropBelow floor count with floor := raised } := by
  have hswept := h.sweep (fun x => decide (x.groupId < floor)) (fun _ => false) rfl
  refine { hswept with floor := ?_ }
  intro x hx f hf
  have hx' : x ∈ (s.sweep (fun x => decide (x.groupId < floor)) fun _ => false).queued := hx
  rw [queued_sweep, List.mem_filter] at hx'
  rcases hfloor f hf with hle | hmem
  · have habove : floor ≤ x.groupId := by simpa using hx'.2
    exact hle.trans habove
  · exact h.floor x hx'.1 f hmem

theorem dropped (h : Accounts s) (floor : Nat) (count : Bool) :
    Accounts (s.dropBelow floor count) := by
  have hkept := h.dropBelow floor s.floor count fun _ hf => Or.inr hf
  rwa [← dropBelow_floor] at hkept

theorem skip (h : Accounts s) (gid : Nat) (count : Bool) : Accounts (s.skip gid count) := by
  unfold SendLane.skip
  split_ifs
  · rw [dropBelow_floor]
    refine h.dropBelow _ _ count fun f hf => ?_
    obtain rfl := Option.some.inj hf
    exact Or.inl le_rfl
  · exact h

theorem stop (h : Accounts s) : Accounts s.stop := by
  unfold SendLane.stop
  split_ifs
  · exact h
  · exact {
      bytes := rfl
      replayBytes := rfl
      objects := rfl
      cut := fun _ hstopped => absurd hstopped Bool.true_eq_false.mp
      noCut := fun _ => List.not_mem_nil
      oneCut := List.not_mem_nil
      order := by
        show (s.through ++ [] ++ []).Sublist s.offered
        rw [List.append_nil, List.append_nil]
        exact ((List.sublist_append_left _ _).trans (List.sublist_append_left _ _)).trans h.order
      floor := fun x hx => absurd hx List.not_mem_nil
      awake := fun _ _ => rfl }

theorem freeHeader (h : Accounts s) (floor : Nat) (ans : ω) :
    Accounts (s.freeHeader W floor ans) := by
  unfold SendLane.freeHeader
  split_ifs
  · exact { h with }
  · exact h

/-- A CUT goes to the head of the queue unless one waits there. -/
theorem putCut (h : Accounts s) : Accounts s.putCut := by
  unfold SendLane.putCut
  split_ifs with hcut
  · exact h
  · exact { h with
      cut := fun _ _ => rfl
      noCut := fun hfalse => absurd hfalse Bool.true_eq_false.mp
      oneCut := h.noCut (Bool.eq_false_iff.mpr hcut)
      awake := fun _ _ => rfl }

theorem noteShed (h : Accounts s) : Accounts s.noteShed := by
  unfold SendLane.noteShed
  split_ifs
  · exact h
  · exact { h with }

theorem cutBelow {floor : Nat}
    (h : Accounts { s with floor := some (s.floor.elim floor (max · floor)) }) (ans : ω) :
    Accounts (s.cutBelow W floor ans) := by
  have hraised : Accounts (s.raiseTo (s.floor.elim floor (max · floor))) := { h with }
  exact (hraised.freeHeader _ ans).putCut.noteShed

theorem readTx (h : Accounts s) (floor : Option Nat) (ans : ω) : Accounts (s.readTx W floor ans) :=
  { h with }

/-- What is below the new floor is dropped first. -/
theorem dropped_cutBelow (h : Accounts s) (floor : Nat) (below : Option Nat) (read ans : ω) :
    Accounts (((s.dropBelow floor true).readTx W below read).cutBelow W floor ans) := by
  have hraised := h.dropBelow floor (some (s.floor.elim floor (max · floor)))
    true ?_
  · apply cutBelow
    have hfloor : ((s.dropBelow floor true).readTx W below read).floor = s.floor :=
      floor_dropBelow s floor true
    rw [hfloor]
    exact { hraised with }
  · intro f hf
    obtain rfl := Option.some.inj hf
    cases hfloor : s.floor with
    | none => exact Or.inl le_rfl
    | some f =>
      rcases le_total f floor with hle | hle
      · exact Or.inl (max_le hle le_rfl)
      · refine Or.inr ?_
        show some f = some (max f floor)
        rw [max_eq_left hle]

theorem shedAt (h : Accounts s) (gid : Nat) (ans : OfferAnswers ω) :
    Accounts (s.shedAt W gid ans) := by
  unfold SendLane.shedAt
  dsimp only
  split_ifs
  · exact ((h.dropped gid true).readTx _ _).dropped_cutBelow ..
  · exact h.dropped_cutBelow ..

theorem failed (h : Accounts s) (x : LaneItem α) (e : SendError) : Accounts (s.failed W x e).2 := by
  cases e with
  | datagramTooLarge | cancelled => exact h
  | other =>
    have hreset : Accounts { s with writer := W.resetGroup s.writer } := { h with }
    exact { hreset.skip x.groupId true with }

/-! ### Taking an object -/

/-- The object is behind all that waits. -/
theorem put_item (h : Accounts s)
    (horder : (s.through ++ s.inFlight.toList ++ s.queued ++ [x]).Sublist s.offered)
    (hfloor : ∀ floor ∈ s.floor, floor ≤ x.groupId) :
    Accounts ((s.count x).put (.item x)) := by
  rw [count_eq]
  constructor
  · rw [queued_put_item, liveBytes_append, Nat.cast_add]
    exact congrArg (· + _) h.bytes
  · rw [queued_put_item, replayedBytes_append, Nat.cast_add]
    exact congrArg (· + _) h.replayBytes
  · rw [queued_put_item, objectCount_append, Nat.cast_add]
    exact congrArg (· + _) h.objects
  · intro hcut hstopped
    have hhead := h.cut hcut hstopped
    show (s.items ++ _).head? = _
    rw [List.head?_append, hhead, Option.some_or]
  · intro hcut hmem
    rcases List.mem_append.mp hmem with hmem | hmem
    · exact h.noCut hcut hmem
    · simp at hmem
  · intro hmem
    rcases mem_tail_concat hmem with hmem | hmem
    · exact h.oneCut hmem
    · simp at hmem
  · rw [queued_put_item]
    rw [List.append_assoc] at horder
    exact horder
  · intro y hy
    rw [queued_put_item] at hy
    rcases List.mem_append.mp hy with hy | hy
    · exact h.floor y hy
    · rw [List.mem_singleton.mp hy]
      exact hfloor
  · exact fun _ _ => rfl

theorem enqueue (h : Accounts s)
    (horder : (s.through ++ s.inFlight.toList ++ s.queued ++ [x]).Sublist s.offered)
    (hfloor : ∀ floor ∈ s.floor, floor ≤ x.groupId) (ans : OfferAnswers ω) :
    Accounts (s.enqueue W x ans) := by
  have hput := h.put_item horder hfloor
  unfold SendLane.enqueue
  split_ifs
  · exact hput.shedAt _ ans
  · exact hput

/-- The writer is through with an object that was not queued. -/
theorem nowaitCame (h : Accounts s)
    (horder : (s.through ++ s.inFlight.toList ++ s.queued ++ [x]).Sublist s.offered)
    (hfloor : ∀ floor ∈ s.floor, floor ≤ x.groupId) (hqueued : s.queued = [])
    (hflight : s.inFlight = none) (ans : OfferAnswers ω) (came : Nowait × σ) :
    Accounts (s.nowaitCame W x ans came) := by
  have hthrough : (s.through ++ [x] ++ s.inFlight.toList ++ s.queued).Sublist s.offered := by
    rw [hflight, hqueued] at horder ⊢
    simpa using horder
  obtain ⟨result, writer⟩ := came
  have hwritten : Accounts { s with writer, through := s.through ++ [x] } :=
    { h with order := hthrough }
  cases result with
  | waits =>
    have hwriter : Accounts { s with writer } := { h with }
    exact hwriter.enqueue horder hfloor ans
  | returns sent => exact { hwritten with }
  | raises e =>
    cases e with
    | cancelled => exact hwritten
    | datagramTooLarge => exact hwritten.stop
    | other => exact hwritten.failed (W := W) x .other

theorem place (h : Accounts s)
    (horder : (s.through ++ s.inFlight.toList ++ s.queued ++ [x]).Sublist s.offered)
    (hfloor : ∀ floor ∈ s.floor, floor ≤ x.groupId) (ans : OfferAnswers ω) :
    Accounts (s.place W x ans) := by
  unfold SendLane.place
  cases hinline : s.inline? W x with
  | none => exact h.enqueue horder hfloor ans
  | some nowait =>
    obtain ⟨hqueued, hflight⟩ := queued_of_inline hinline
    exact h.nowaitCame horder hfloor hqueued hflight ans _

theorem probe_place (h : Accounts s)
    (horder : (s.through ++ s.inFlight.toList ++ s.queued ++ [x]).Sublist s.offered)
    (hfloor : ∀ floor ∈ s.floor, floor ≤ x.groupId) (ans : OfferAnswers ω) :
    Accounts ((s.probe W x ans.probe).place W x ans) := by
  obtain ⟨writer, txBytes, probeGid, probeN, hprobe⟩ := probe_eq (W := W) s x ans.probe
  rw [hprobe]
  have hprobed : Accounts { s with writer, txBytes, probeGid, probeN } := { h with }
  exact hprobed.place horder hfloor ans

theorem take (h : Accounts s)
    (horder : (s.through ++ s.inFlight.toList ++ s.queued ++ [x]).Sublist s.offered)
    (ans : OfferAnswers ω) : Accounts (s.take W x ans) := by
  unfold SendLane.take
  split_ifs with hbelow
  · exact { h with }
  · exact h
  · refine h.probe_place horder (fun floor hfloor => ?_) ans
    by_contra hlt
    have hsome : s.floor = some floor := hfloor
    rw [hsome] at hbelow
    exact hbelow (decide_eq_true (not_le.mp hlt))

theorem offer (h : Accounts s) (x : LaneItem α) (ans : OfferAnswers ω) :
    Accounts (s.offer W x ans) := by
  unfold SendLane.offer
  split_ifs
  · exact h
  · have hoffered : Accounts { s with
        offered := s.offered ++ [{ x with place := s.offered.length }] } :=
      { h with order := h.order.trans (List.sublist_append_left _ _) }
    exact hoffered.take (h.order.append_right _) ans

/-! ### What the source calls -/

theorem tell (h : Accounts s) {c : Control} (hc : c ≠ .cut) : Accounts (s.tell c) := by
  unfold SendLane.tell
  split_ifs
  · exact h
  · exact h.put_control hc

theorem closeStreams (h : Accounts s) : Accounts s.closeStreams := by
  unfold SendLane.closeStreams
  split_ifs
  · exact h
  · have hclosing : Accounts { s with closing := true } := { h with }
    exact hclosing.put_control (by simp)

theorem finish (h : Accounts s) : Accounts s.finish := by
  unfold SendLane.finish
  split_ifs
  · exact h
  · have hfinal : Accounts { s with final := true } := { h with }
    exact hfinal.put_control (by simp)

/-- The floor is lowered to a group none of which waits. -/
theorem resume (h : Accounts s) (groupId : Nat) (rejoin : Bool) :
    Accounts (s.resume W groupId rejoin) := by
  unfold SendLane.resume
  dsimp only
  have hswept := h.sweep (fun x => decide (x.groupId ≤ groupId)) (moot groupId) rfl
  have hreset : Accounts { s.sweep (fun x => decide (x.groupId ≤ groupId)) (moot groupId) with
      writer := W.resetGroup
        (s.sweep (fun x => decide (x.groupId ≤ groupId)) (moot groupId)).writer } := { hswept with }
  split_ifs with hstopped hskip hfloor
  · exact h
  · exact hreset.skip groupId false
  · refine { hreset with floor := fun x hx floor hfloor' => ?_ }
    obtain rfl := Option.some.inj hfloor'
    exact (Nat.le_succ _).trans (hreset.floor x hx _ hfloor)
  · exact hreset

/-! ### The task -/

/-- The head of the queue comes off. -/
theorem pop_control (h : Accounts s) {c : Control} {items : List (LaneEntry α)}
    (hitems : s.items = .control c :: items) :
    Accounts { s with cut := if c = .cut then false else s.cut, items } := by
  have hqueued : s.queued = items.filterMap LaneEntry.item? := by
    rw [queued_eq, hitems, List.filterMap_cons_none rfl]
  have htail : .control .cut ∉ items := by
    have hone := h.oneCut
    rwa [hitems, List.tail_cons] at hone
  refine ⟨h.bytes.trans (by rw [hqueued]; rfl), h.replayBytes.trans (by rw [hqueued]; rfl),
    h.objects.trans (by rw [hqueued]; rfl), ?_, fun _ => htail,
    fun hmem => htail (List.mem_of_mem_tail hmem), ?_, ?_, ?_⟩
  · intro hcut hstopped
    have hne : c ≠ .cut := by
      rintro rfl
      simp at hcut
    have hhead := h.cut (by simpa [hne] using hcut) hstopped
    rw [hitems] at hhead
    exact absurd (LaneEntry.control.inj (Option.some.inj hhead)) hne
  · have horder := h.order
    rw [hqueued] at horder
    exact horder
  · have hfloor := h.floor
    rw [hqueued] at hfloor
    exact hfloor
  · intro hasleep _
    exact h.awake hasleep (by rw [hitems]; exact List.cons_ne_nil _ _)

theorem pop_item (h : Accounts s) {items : List (LaneEntry α)}
    (hitems : s.items = .item x :: items) : Accounts ({ s with items }.uncount x) := by
  have hqueued : s.queued = x :: items.filterMap LaneEntry.item? := queued_of_items hitems
  have hcut : s.cut = true → s.stopped = true := by
    intro hcut
    by_contra hstopped
    have hhead := h.cut hcut (Bool.eq_false_iff.mpr hstopped)
    rw [hitems] at hhead
    simp at hhead
  have hbytes := h.bytes
  have hreplay := h.replayBytes
  have hobjects := h.objects
  rw [hqueued] at hbytes hreplay hobjects
  rw [liveBytes_cons] at hbytes
  rw [replayedBytes_cons] at hreplay
  rw [objectCount_cons] at hobjects
  rw [uncount_eq]
  constructor
  · show s.bytes - _ = ((liveBytes (items.filterMap LaneEntry.item?) : Nat) : Int)
    omega
  · show s.replayBytes - _ = ((replayedBytes (items.filterMap LaneEntry.item?) : Nat) : Int)
    omega
  · show s.objects - _ = ((objectCount (items.filterMap LaneEntry.item?) : Nat) : Int)
    omega
  · intro hc hstopped
    exact absurd (hcut hc) (Bool.eq_false_iff.mp hstopped)
  · intro hc hmem
    exact h.noCut hc (by rw [hitems]; exact List.mem_cons_of_mem _ hmem)
  · intro hmem
    have hone := h.oneCut
    rw [hitems, List.tail_cons] at hone
    exact hone (List.mem_of_mem_tail hmem)
  · have horder := h.order
    rw [hqueued] at horder
    exact ((List.sublist_cons_self _ _).append_left _).trans horder
  · intro y hy
    have hfloor := h.floor y
    rw [hqueued] at hfloor
    exact hfloor (List.mem_cons_of_mem _ hy)
  · intro hasleep _
    exact h.awake hasleep (by rw [hitems]; exact List.cons_ne_nil _ _)

theorem moved (h : Accounts s) {task : LaneTask κ α} {through : List (LaneItem α)}
    (hawake : asleep { s with task } = false)
    (horder : (through ++ (inFlight { s with task }).toList ++ s.queued).Sublist s.offered) :
    Accounts { s with task, through } :=
  { h with
    order := horder
    awake := fun hasleep => absurd (hawake.symm.trans hasleep) Bool.false_ne_true }

/-- Nothing is being written any more. -/
theorem finished (h : Accounts s) {task : LaneTask κ α} (hawake : asleep { s with task } = false)
    (hflight : inFlight { s with task } = none) : Accounts { s with task } := by
  refine h.moved hawake ?_
  rw [hflight]
  exact (List.Sublist.append_right (by simp) _).trans h.order

theorem next (h : Accounts s) : Accounts s.next := by
  have hdone : Accounts { s with done := s.done + 1 } := { h with }
  exact hdone.finished rfl rfl

/-- The object in progress comes before all that waits. -/
theorem sendCame (h : Accounts s) (horder : (s.through ++ [x] ++ s.queued).Sublist s.offered)
    (came : Progress κ × σ) : Accounts (s.sendCame W x came) := by
  obtain ⟨result, writer⟩ := came
  have hwriter : Accounts { s with writer } := { h with }
  have hready : Accounts { s with
      writer, through := s.through ++ [x], task := (.ready : LaneTask κ α) } := by
    refine hwriter.moved rfl ?_
    show (s.through ++ [x] ++ [] ++ s.queued).Sublist s.offered
    rwa [List.append_nil]
  cases result with
  | waits rest => exact hwriter.moved rfl horder
  | returns sent => exact hready.next
  | raises e =>
    cases e with
    | datagramTooLarge | cancelled => exact hready.finished rfl rfl
    | other => exact (hready.failed (W := W) x .other).next

theorem endCame (h : Accounts s) (came : Progress κ × σ) : Accounts (s.endCame came) := by
  obtain ⟨result, writer⟩ := came
  have hwriter : Accounts { s with writer } := { h with }
  cases result with
  | waits rest => exact hwriter.finished rfl rfl
  | returns sent => exact hwriter.next
  | raises e =>
    cases e with
    | cancelled => exact hwriter.finished rfl rfl
    | datagramTooLarge | other => exact hwriter.next

theorem runItem (h : Accounts s) (horder : (s.through ++ [x] ++ s.queued).Sublist s.offered)
    (now : ℚ) (ans : ω) : Accounts (s.runItem W x now ans) := by
  unfold SendLane.runItem
  split_ifs with hgate hlate
  · rcases W.expire s.writer x.groupId with ⟨skips, writer⟩
    have hexpired : Accounts { s with expired := s.expired + 1, writer } := { h with }
    cases skips with
    | true =>
      have hlost : Accounts { SendLane.skip { s with expired := s.expired + 1, writer } x.groupId true
        with lost := some x.groupId } := { hexpired.skip x.groupId true with }
      exact hlost.next
    | false => exact hexpired.next
  · exact h.sendCame horder _
  · have hreset : Accounts { s with writer := W.resetGroup s.writer } := { h with }
    exact (hreset.skip x.groupId false).next

theorem runControl (h : Accounts s) {c : Control} {items : List (LaneEntry α)}
    (hitems : s.items = .control c :: items) (ans : ω) :
    Accounts ({ s with items }.runControl W ans c) := by
  have hpop := h.pop_control hitems
  cases c with
  | cut =>
    have hcut : Accounts { s with
      cut := false, items
      writer := s.floor.elim s.writer fun floor => W.resetBelow s.writer floor ans } := { hpop with }
    exact hcut.next
  | endGroup =>
    have hclosed : Accounts { s with items, writer := W.endGroup s.writer } := { hpop with }
    exact hclosed.next
  | endTrack largest =>
    have hrest : Accounts { s with items } := hpop
    unfold SendLane.runControl
    split_ifs
    · exact hrest.endCame _
    · exact hrest.next
  | resetGroup gid =>
    have hreset : Accounts { s with items, writer := W.resetGroup s.writer } := { hpop with }
    cases gid with
    | none => exact hreset.next
    | some gid => exact (hreset.skip gid true).next
  | close =>
    have hclosed : Accounts { s with items, closing := false, writer := W.closeStreams s.writer } :=
      { hpop with }
    exact hclosed.next
  | final =>
    have hfinal : Accounts { s with items, writer := W.final s.writer } := { hpop with }
    exact hfinal.finished rfl rfl

theorem turn (h : Accounts s) (now : ℚ) (ans : ω) : Accounts (s.turn W now ans) := by
  refine turn_cases h (fun _ => h.finished rfl rfl) ?_ (fun rest _ => h.endCame _)
    (fun _ => h.finished rfl rfl) ?_ (fun c items _ _ hitems => h.runControl hitems ans) ?_
  · intro x rest htask
    have horder := h.order
    rw [inFlight_of_sending htask] at horder
    exact h.sendCame horder _
  · intro htask hitems
    have horder := h.order
    rw [inFlight_of_ready htask] at horder
    exact { h with order := horder, awake := fun _ hne => absurd hitems hne }
  · intro x items htask _ hitems
    refine (h.pop_item hitems).runItem ?_ now ans
    have horder := h.order
    rw [inFlight_of_ready htask, queued_of_items hitems, Option.toList_none,
      List.append_nil] at horder
    rw [uncount_eq, List.append_assoc]
    exact horder

end Accounts

/-! ## Runs -/

theorem Accounts.step (h : Accounts s) (event : LaneEvent α ω) : Accounts (step W s event) := by
  cases event with
  | offer x ans => exact h.offer x ans
  | endGroup => exact h.tell (by simp)
  | endTrack largest => exact h.tell (by simp)
  | resetGroup groupId => exact h.tell (by simp)
  | closeStreams => exact h.closeStreams
  | finish => exact h.finish
  | resume groupId rejoin => exact h.resume groupId rejoin
  | gate isOpen => exact { h with }
  | deadline value => exact { h with }
  | stop => exact h.stop
  | cancel => exact h.finished rfl rfl
  | owner ans => exact { h with }
  | turn now ans => exact h.turn now ans

theorem Accounts.run (h : Accounts s) (events : List (LaneEvent α ω)) :
    Accounts (run W s events) := by
  induction events generalizing s with
  | nil => exact h
  | cons event events ih => exact ih (h.step event)

theorem accounts_start (writer : σ) (maxBytes : Int) (gate : Bool) (joined : Option Nat) :
    Accounts (start writer maxBytes gate joined : SendLane σ κ α) where
  bytes := rfl
  replayBytes := rfl
  objects := rfl
  cut hcut := absurd hcut Bool.false_ne_true
  noCut _ := List.not_mem_nil
  oneCut := List.not_mem_nil
  order := List.Sublist.refl _
  floor _ hx := absurd hx List.not_mem_nil
  awake hasleep := absurd hasleep Bool.false_ne_true

/-- Whatever comes, in any order: the counters are what waits, a CUT waits at the head only,
objects are written in the order they were offered, none below the floor waits, and the task
does not sleep over work. -/
theorem accounts_of_run (W : LaneWriter σ κ α ω) (writer : σ) (maxBytes : Int) (gate : Bool)
    (joined : Option Nat) (events : List (LaneEvent α ω)) :
    Accounts (run W (start writer maxBytes gate joined) events) :=
  (accounts_start writer maxBytes gate joined).run events

/-- In every run, over every writer: the counters are what the objects that wait add up to, at
most one CUT waits, at the head, and the objects handed to the writer are some of those that
were offered, in their order. -/
theorem counters_of_run (W : LaneWriter σ κ α ω) (writer : σ) (maxBytes : Int) (gate : Bool)
    (joined : Option Nat) (events : List (LaneEvent α ω)) :
    let s := run W (start writer maxBytes gate joined) events
    s.bytes = liveBytes s.queued ∧ s.replayBytes = replayedBytes s.queued ∧
      s.objects = objectCount s.queued ∧ 0 ≤ s.bytes ∧ 0 ≤ s.replayBytes ∧ 0 ≤ s.objects ∧
      .control .cut ∉ s.items.tail ∧ (s.through ++ s.inFlight.toList).Sublist s.offered := by
  intro s
  have h : Accounts s := (accounts_start writer maxBytes gate joined).run events
  refine ⟨h.bytes, h.replayBytes, h.objects, ?_, ?_, ?_, h.oneCut, ?_⟩
  · rw [h.bytes]
    omega
  · rw [h.replayBytes]
    omega
  · rw [h.objects]
    omega
  · exact (List.sublist_append_left ..).trans h.order

end SendLane

end AioMoqt.Delivery
