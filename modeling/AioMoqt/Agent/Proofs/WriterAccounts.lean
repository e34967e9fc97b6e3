import AioMoqt.Agent.Proofs.Writer

/-!
# What becomes of an agent's calls

Every call that returned stands for one object handed on, queued or dropped.
-/

namespace AioMoqt.Agent

open AioMoqt.Lib.BigEndian

/-! ## Calls -/

namespace Writer

variable {spec : PublishSpec} {w : Writer}

/-- How often a payload is queued or was dropped. -/
def stock (w : Writer) (data : Bytes) : Nat :=
  ((items w.queue).map Item.payload).count data + w.lost.count data

/-- `stats.dropped` counts the history, and there is no sentinel. -/
structure Clean (w : Writer) : Prop where
  dropped : w.stats.dropped = w.lost.length
  objects : none ∉ w.queue

/-- What a call leaves: `added` more of its payload, the rest as it was. -/
structure Added (w w' : Writer) (data : Bytes) (added : Nat) : Prop where
  clean : w'.Clean
  stock : ∀ b, w'.stock b = w.stock b + if b = data then added else 0
  closed : w'.closed = w.closed
  putter : w'.putter = w.putter

theorem Clean.added (h : w.Clean) (data : Bytes) : Added w w data 0 :=
  ⟨h, fun b => by rw [ite_self, Nat.add_zero], rfl, rfl⟩

theorem Added.trans {w' w'' : Writer} {data : Bytes} {m n : Nat} (h : Added w w' data m)
    (h' : Added w' w'' data n) : Added w w'' data (m + n) where
  clean := h'.clean
  stock b := by
    rw [h'.stock, h.stock]
    split <;> omega
  closed := h'.closed.trans h.closed
  putter := h'.putter.trans h.putter

theorem items_length {queue : List (Option Item)} (h : none ∉ queue) :
    (items queue).length = queue.length := by
  induction queue with
  | nil => rfl
  | cons queued queue ih =>
      cases queued with
      | none => exact absurd List.mem_cons_self h
      | some item =>
          rw [items_cons_some, List.length_cons, List.length_cons,
            ih fun hmem => h (List.mem_cons_of_mem _ hmem)]

theorem stock_drop (w : Writer) (gone : List (Option Item)) (b : Bytes) :
    (w.drop gone).stock b = w.stock b + ((items gone).map Item.payload).count b := by
  show _ + (w.lost ++ (items gone).map Item.payload).count b = _
  rw [List.count_append, ← Nat.add_assoc]
  rfl

theorem count_one (data b : Bytes) : [data].count b = if b = data then 1 else 0 := by
  rw [List.count_singleton]
  simp only [beq_iff_eq, @eq_comm _ data b]

theorem Clean.drop (h : w.Clean) {gone : List (Option Item)} (hgone : none ∉ gone) :
    (w.drop gone).Clean where
  dropped := by
    show w.stats.dropped + gone.length = (w.lost ++ (items gone).map Item.payload).length
    rw [List.length_append, List.length_map, items_length hgone, h.dropped]
  objects := h.objects

/-- An object dropped on its way into the queue. -/
theorem Clean.drop_item (h : w.Clean) (item : Item) :
    Added w (w.drop [some item]) item.payload 1 where
  clean := h.drop (by simp)
  stock b := by
    rw [stock_drop]
    exact congrArg (w.stock b + ·) (count_one item.payload b)
  closed := rfl
  putter := rfl

/-- The objects of a group and the rest make up the queue. -/
theorem count_filter (groupId : Int) (queue : List (Option Item)) (b : Bytes) :
    ((items (queue.filter (!ofGroup groupId ·))).map Item.payload).count b +
      ((items (queue.filter (ofGroup groupId))).map Item.payload).count b =
        ((items queue).map Item.payload).count b := by
  induction queue with
  | nil => rfl
  | cons queued queue ih =>
      cases hof : ofGroup groupId queued with
      | true =>
          rw [List.filter_cons_of_neg (by simp [hof]), List.filter_cons_of_pos hof]
          cases queued with
          | none => cases hof
          | some item =>
              rw [items_cons_some, items_cons_some, List.map_cons, List.map_cons, List.count_cons,
                List.count_cons]
              omega
      | false =>
          rw [List.filter_cons_of_pos (by simp [hof]), List.filter_cons_of_neg (by simp [hof])]
          cases queued with
          | none => rw [items_cons_none, items_cons_none, ih]
          | some item =>
              rw [items_cons_some, items_cons_some, List.map_cons, List.map_cons, List.count_cons,
                List.count_cons]
              omega

/-- What `_abandon` takes out of the queue it counts. -/
theorem Clean.abandon (h : w.Clean) (groupId : Int) (data : Bytes) :
    Added w (w.abandon groupId) data 0 := by
  have hgone : none ∉ w.queue.filter (ofGroup groupId) := fun hmem =>
    h.objects (List.mem_of_mem_filter hmem)
  have hdrop := h.drop hgone
  have hparts : ∀ w' : Writer, w'.queue = w.queue.filter (!ofGroup groupId ·) →
      w'.lost = (w.drop (w.queue.filter (ofGroup groupId))).lost →
      w'.stats = (w.drop (w.queue.filter (ofGroup groupId))).stats →
      w'.closed = w.closed → w'.putter = w.putter → Added w w' data 0 := by
    intro w' hqueue hlost hstats hclosed hputter
    refine ⟨⟨?_, fun hmem => ?_⟩, fun b => ?_, hclosed, hputter⟩
    · rw [hstats, hlost]
      exact hdrop.dropped
    · rw [hqueue] at hmem
      exact h.objects (List.mem_of_mem_filter hmem)
    · have hcount := count_filter groupId w.queue b
      unfold stock
      rw [hqueue, hlost, ite_self]
      unfold Writer.drop
      rw [List.count_append]
      omega
  unfold Writer.abandon
  dsimp only
  split
  · exact hparts _ rfl rfl rfl rfl rfl
  · exact hparts _ rfl rfl rfl rfl rfl

/-- An object goes on to the end of the queue, or it is refused. -/
theorem Clean.putNowait (spec : PublishSpec) (h : w.Clean) (item : Item) :
    Added w (putNowait spec w (some item)).1 item.payload
      (if (putNowait spec w (some item)).2 = .ok true then 1 else 0) := by
  unfold Writer.putNowait
  split
  · exact h.added _
  · refine ⟨⟨h.dropped, fun hnone => ?_⟩, fun b => ?_, rfl, rfl⟩
    · exact (List.mem_append.mp hnone).elim h.objects fun hmem => by
        cases List.mem_singleton.mp hmem
    · show ((items (w.queue ++ [some item])).map Item.payload).count b + w.lost.count b = _
      rw [items_append_some, List.map_append, List.count_append, List.map_singleton, count_one,
        if_pos rfl]
      unfold stock
      omega

/-- The accounts of `_admit`: what it does not refuse is queued or dropped. -/
def Taken (w : Writer) (data : Bytes) (out : Writer × Except WriteError Bool) : Prop :=
  Added w out.1 data (if out.2.isOk then 1 else 0)

theorem Clean.putNowait_taken (spec : PublishSpec) (h : w.Clean) (item : Item) :
    Taken w item.payload (Writer.putNowait spec w (some item)) := by
  have hadded := h.putNowait spec item
  unfold Taken Writer.putNowait at *
  split <;> rename_i hfull <;> simp only [hfull] at hadded <;> exact hadded

/-- With the oldest object counted, so is the one that it made room for. -/
theorem Added.evicted {kept : Writer} {item : Item} (h : Added w kept item.payload 0)
    (oldest : Item) :
    Taken w item.payload (
      if oldest.groupStart then
        let w := kept.abandon oldest.groupId
        if item.groupId = oldest.groupId then (w.drop [some item], .ok false)
        else Writer.putNowait spec w (some item)
      else Writer.putNowait spec kept (some item)) := by
  have hput : ∀ {w' : Writer}, Added w w' item.payload 0 →
      Taken w item.payload (Writer.putNowait spec w' (some item)) := by
    intro w' hw'
    have htaken := hw'.trans (hw'.clean.putNowait_taken spec item)
    rwa [Nat.zero_add] at htaken
  have habandoned := h.trans (h.clean.abandon oldest.groupId item.payload)
  dsimp only
  split
  · split
    · exact habandoned.trans (habandoned.clean.drop_item item)
    · exact hput habandoned
  · exact hput h

/-- **Every object admitted is accounted for.** -/
theorem Clean.admitItem (spec : PublishSpec) (h : w.Clean) (item : Item) :
    Taken w item.payload (admitItem spec w item) := by
  unfold Writer.admitItem
  by_cases hfull : full spec w = true
  · rw [if_pos hfull]
    cases spec.onFull with
    | block => exact h.putNowait_taken spec item
    | error => exact h.added _
    | dropNew =>
        have hdropped := h.drop_item item
        dsimp only
        split
        · exact hdropped.trans (hdropped.clean.abandon item.groupId item.payload)
        · exact hdropped
    | dropOldest =>
        dsimp only
        match hqueue : w.queue with
        | [] => exact h.added _
        | none :: queue =>
            refine absurd ?_ h.objects
            rw [hqueue]
            exact List.mem_cons_self
        | some oldest :: queue =>
            have hevicted : Added w ({ w with queue }.drop [some oldest]) item.payload 0 := by
              have hkept : none ∉ queue := fun hmem => h.objects <| by
                rw [hqueue]
                exact List.mem_cons_of_mem _ hmem
              have hclean : Clean { w with queue } := ⟨h.dropped, hkept⟩
              refine ⟨hclean.drop (by simp), fun b => ?_, rfl, rfl⟩
              have hone := count_one oldest.payload b
              rw [stock_drop, ite_self]
              unfold stock
              rw [hqueue, items_cons_some, List.map_cons, List.count_cons]
              rw [List.count_singleton] at hone
              simp only [items_cons_some, List.map_cons, List.count_cons]
              show _ + _ + (0 + _) = _
              omega
            exact hevicted.evicted oldest
  · rw [if_neg hfull]
    exact h.putNowait_taken spec item

/-- What a call leaves where it returns, waits or raises. -/
structure Called (w : Writer) (data : Bytes) (out : Writer × Outcome) : Prop where
  dropped : out.1.stats.dropped = out.1.lost.length
  sentinel : none ∈ out.1.queue → out.1.closed = true
  stock : ∀ b, out.1.stock b = w.stock b + if b = data ∧ out.2 = .returned then 1 else 0
  putter : ∀ item, out.1.putter ≠ some ⟨item, .done⟩

theorem Added.called {w' : Writer} {data : Bytes} {added : Nat} (h : Added w w' data added)
    (hputter : w.putter = none) {outcome : Outcome}
    (hadded : added = if outcome = .returned then 1 else 0) : Called w data (w', outcome) where
  dropped := h.clean.dropped
  sentinel hnone := absurd hnone h.clean.objects
  stock b := by
    rw [h.stock, hadded]
    by_cases hb : b = data <;> simp only [hb, if_true, if_false, true_and, false_and]
  putter item hdone := by
    rw [h.putter.trans hputter] at hdone
    cases hdone

theorem Clean.put (spec : PublishSpec) (h : w.Clean) (hputter : w.putter = none)
    (data : Bytes) (groupStart : Bool) :
    Called w data (put spec w data groupStart) := by
  unfold Writer.put
  dsimp only
  split
  · refine ⟨h.dropped, fun hnone => absurd hnone h.objects, fun b => ?_, fun item hdone => ?_⟩
    · rw [if_neg fun hreturned => by cases hreturned.2]
      rfl
    · cases hdone
  · have htaken := h.admitItem spec ⟨w.group, w.object, data, groupStart⟩
    unfold Taken at htaken
    generalize Writer.admitItem spec w ⟨w.group, w.object, data, groupStart⟩ = out at *
    match out with
    | (w', .error e) => exact htaken.called hputter rfl
    | (w', .ok false) => exact htaken.called hputter rfl
    | (w', .ok true) =>
        have hnumbered : Added w (w'.number data.length) data 1 :=
          ⟨⟨htaken.clean.dropped, htaken.clean.objects⟩, htaken.stock, htaken.closed, htaken.putter⟩
        exact hnumbered.called hputter rfl

/-- Raising on a closed writer changes nothing. -/
theorem closed_called (hdropped : w.stats.dropped = w.lost.length)
    (hsentinel : none ∈ w.queue → w.closed = true) (hputter : w.putter = none) (data : Bytes)
    (e : WriteError) : Called w data (w, .raised e) where
  dropped := hdropped
  sentinel := hsentinel
  stock b := by rw [if_neg fun hreturned => by cases hreturned.2]; rfl
  putter item hdone := by
    rw [hputter] at hdone
    cases hdone

theorem snapshot_called (hdropped : w.stats.dropped = w.lost.length)
    (hsentinel : none ∈ w.queue → w.closed = true) (hputter : w.putter = none) (data : Bytes) :
    Called w data (snapshot spec w data) := by
  unfold snapshot
  split
  · exact closed_called hdropped hsentinel hputter data _
  case isFalse hopen =>
    have hclean : w.advanceGroup.Clean := ⟨hdropped, fun hnone => hopen (hsentinel hnone)⟩
    have hcalled := hclean.put spec hputter data true
    exact ⟨hcalled.dropped, hcalled.sentinel, hcalled.stock, hcalled.putter⟩

theorem write_called (hdropped : w.stats.dropped = w.lost.length)
    (hsentinel : none ∈ w.queue → w.closed = true) (hputter : w.putter = none) (data : Bytes) :
    Called w data (write spec w data) := by
  unfold write
  split
  · exact closed_called hdropped hsentinel hputter data _
  case isFalse hopen =>
    have hobjects : none ∉ w.queue := fun hnone => hopen (hsentinel hnone)
    split
    · have hclean : w.advanceGroup.Clean := ⟨hdropped, hobjects⟩
      have hcalled := hclean.put spec hputter data true
      exact ⟨hcalled.dropped, hcalled.sentinel, hcalled.stock, hcalled.putter⟩
    · exact Clean.put spec ⟨hdropped, hobjects⟩ hputter data false

end Writer

/-! ## Steps -/

namespace State

variable {spec : PublishSpec} {s : State}

/-- The payload that was queued for a caller that has not gone on yet. -/
def inflight (s : State) : List Bytes :=
  match s.writer.putter with
  | some ⟨item, .done⟩ => [item.payload]
  | _ => []

/-- Every call that returned stands for one object handed on, queued or dropped; the other objects
are those of callers that were cancelled, or have not gone on yet. -/
structure Accounted (s : State) : Prop where
  dropped : s.writer.stats.dropped = s.writer.lost.length
  sentinel : none ∈ s.writer.queue → s.writer.closed = true
  calls : ∀ b, s.returned.count b + s.orphans.count b + s.inflight.count b =
    (s.handed.map Item.payload).count b + s.writer.stock b

theorem inflight_of_not_done (h : ∀ item, s.writer.putter ≠ some ⟨item, .done⟩) :
    s.inflight = [] := by
  unfold inflight
  split
  case h_1 item hdone => exact absurd hdone (h item)
  case h_2 => rfl

theorem call_accounted (h : s.Accounted) (hputter : s.writer.putter = none) {data : Bytes}
    {out : Writer × Outcome} (hcalled : Writer.Called s.writer data out) :
    (s.call data out).Accounted := by
  have hnone : s.inflight = [] := inflight_of_not_done fun item hdone => by
    rw [hputter] at hdone
    cases hdone
  have hafter : (s.call data out).inflight = [] := by
    refine inflight_of_not_done fun item => ?_
    have hkeep := hcalled.putter item
    obtain ⟨w, outcome⟩ := out
    cases outcome <;> exact hkeep
  have hcalls := h.calls
  rw [hnone] at hcalls
  refine ⟨?_, ?_, fun b => ?_⟩
  · have hkeep := hcalled.dropped
    obtain ⟨w, outcome⟩ := out
    cases outcome <;> exact hkeep
  · have hkeep := hcalled.sentinel
    obtain ⟨w, outcome⟩ := out
    cases outcome <;> exact hkeep
  · rw [hafter]
    have hstock := hcalled.stock b
    have hbefore := hcalls b
    have hone := Writer.count_one data b
    obtain ⟨w, outcome⟩ := out
    cases outcome with
    | returned =>
        simp only [and_true] at hstock
        show (s.returned ++ [data]).count b + s.orphans.count b + 0 =
          (s.handed.map Item.payload).count b + w.stock b
        rw [List.count_nil] at hbefore
        rw [List.count_append]
        omega
    | waits =>
        rw [if_neg fun hreturned => by cases hreturned.2] at hstock
        exact hbefore.trans (congrArg ((s.handed.map Item.payload).count b + ·) hstock.symm)
    | raised e =>
        rw [if_neg fun hreturned => by cases hreturned.2] at hstock
        exact hbefore.trans (congrArg ((s.handed.map Item.payload).count b + ·) hstock.symm)

theorem putRuns_accounted (h : s.Accounted) : (s.step spec .put).Accounted := by
  simp only [step]
  unfold Writer.putRuns
  split
  case h_2 => exact h
  case h_1 item hputter =>
    split
    · exact h
    · have hnone : s.inflight = [] := inflight_of_not_done fun item' hdone => by
        rw [hputter] at hdone
        cases hdone
      refine ⟨h.dropped, fun hnone => h.sentinel ?_, fun b => ?_⟩
      · exact (List.mem_append.mp hnone).elim id fun hmem => by cases List.mem_singleton.mp hmem
      · have hbefore := h.calls b
        rw [hnone, List.count_nil] at hbefore
        unfold Writer.stock at *
        show s.returned.count b + s.orphans.count b + [item.payload].count b =
          (s.handed.map Item.payload).count b +
            (((items (s.writer.queue ++ [some item])).map Item.payload).count b +
              s.writer.lost.count b)
        rw [items_append_some, List.map_append, List.count_append, List.map_singleton]
        omega

theorem resume_accounted (h : s.Accounted) : s.resume.Accounted := by
  unfold resume
  split
  case h_1 item hputter =>
    have hone : s.inflight = [item.payload] := by
      unfold inflight
      rw [hputter]
    refine ⟨h.dropped, h.sentinel, fun b => ?_⟩
    have hbefore := h.calls b
    rw [hone] at hbefore
    show (s.returned ++ [item.payload]).count b + s.orphans.count b + 0 =
      (s.handed.map Item.payload).count b + s.writer.stock b
    rw [List.count_append]
    omega
  case h_2 item hputter =>
    refine ⟨h.dropped, h.sentinel, fun b => ?_⟩
    have hbefore := h.calls b
    unfold inflight at hbefore
    rw [hputter] at hbefore
    exact hbefore
  case h_3 => exact h

theorem cancel_accounted (h : s.Accounted) : s.cancel.Accounted := by
  unfold cancel
  split
  case h_1 item hputter =>
    refine ⟨h.dropped, h.sentinel, fun b => ?_⟩
    have hbefore := h.calls b
    unfold inflight at hbefore
    rw [hputter] at hbefore
    exact hbefore
  case h_2 item hputter =>
    have hone : s.inflight = [item.payload] := by
      unfold inflight
      rw [hputter]
    refine ⟨h.dropped, h.sentinel, fun b => ?_⟩
    have hbefore := h.calls b
    rw [hone] at hbefore
    show s.returned.count b + (s.orphans ++ [item.payload]).count b + 0 =
      (s.handed.map Item.payload).count b + s.writer.stock b
    rw [List.count_append]
    omega
  case h_3 => exact h

theorem close_accounted (h : s.Accounted) : (s.close spec).Accounted := by
  unfold close
  split
  · exact h
  dsimp only
  generalize hputter : (s.writer.putter.map fun put =>
    if put.state = .pending then { put with state := .cancelled } else put) = putter
  obtain ⟨hitems, hrest⟩ := putNowait_none spec { s.writer with closed := true, putter }
  rw [hrest]
  generalize (Writer.putNowait spec { s.writer with closed := true, putter } none).1.queue =
    queue at *
  refine ⟨h.dropped, fun _ => rfl, fun b => ?_⟩
  have hbefore := h.calls b
  have hinflight : State.inflight { s with
      writer := { s.writer with closed := true, putter, queue }, stopping := true } =
      s.inflight := by
    unfold inflight
    dsimp only
    rw [← hputter]
    cases s.writer.putter with
    | none => rfl
    | some put =>
        obtain ⟨item, state⟩ := put
        cases state <;> rfl
  rw [hinflight]
  unfold Writer.stock at *
  dsimp only at hitems ⊢
  rw [hitems]
  exact hbefore

theorem produce_accounted (h : s.Accounted) : s.produce.Accounted := by
  unfold produce
  cases s.production with
  | head => dsimp only; split <;> exact ⟨h.dropped, h.sentinel, h.calls⟩
  | writing => exact ⟨h.dropped, h.sentinel, h.calls⟩
  | ended => exact h
  | getting =>
      dsimp only
      split
      case h_1 => exact h
      case h_2 queue hqueue =>
        refine ⟨h.dropped, fun hnone => h.sentinel ?_, fun b => ?_⟩
        · rw [hqueue]
          exact List.mem_cons_of_mem _ hnone
        · have hbefore := h.calls b
          unfold Writer.stock at *
          rw [hqueue, items_cons_none] at hbefore
          exact hbefore
      case h_3 item queue hqueue =>
        refine ⟨h.dropped, fun hnone => h.sentinel ?_, fun b => ?_⟩
        · rw [hqueue]
          exact List.mem_cons_of_mem _ hnone
        · have hbefore := h.calls b
          unfold Writer.stock at *
          rw [hqueue, items_cons_some, List.map_cons, List.count_cons] at hbefore
          show s.returned.count b + s.orphans.count b + s.inflight.count b =
            ((s.handed ++ [item]).map Item.payload).count b +
              (((items queue).map Item.payload).count b + s.writer.lost.count b)
          rw [List.map_append, List.count_append, List.map_singleton, List.count_singleton]
          omega

theorem step_accounted (h : s.Accounted) (e : Step) : (s.step spec e).Accounted := by
  cases e with
  | snapshot data =>
      simp only [step]
      split
      · exact h
      case isFalse hlock =>
        have hputter := Option.not_isSome_iff_eq_none.mp hlock
        exact call_accounted h hputter
          (Writer.snapshot_called h.dropped h.sentinel hputter data)
  | write data =>
      simp only [step]
      split
      · exact h
      case isFalse hlock =>
        have hputter := Option.not_isSome_iff_eq_none.mp hlock
        exact call_accounted h hputter (Writer.write_called h.dropped h.sentinel hputter data)
  | endGroup => exact ⟨h.dropped, h.sentinel, h.calls⟩
  | close => exact close_accounted h
  | put => exact putRuns_accounted h
  | resume => exact resume_accounted h
  | cancel => exact cancel_accounted h
  | produce => exact produce_accounted h
  | fail => exact ⟨h.dropped, h.sentinel, h.calls⟩

/-- **No call is lost or counted twice**, on any run. -/
theorem run_accounted (spec : PublishSpec) (h : s.Accounted) (steps : List Step) :
    (s.run spec steps).Accounted := by
  induction steps generalizing s with
  | nil => exact h
  | cons e steps ih => exact ih (step_accounted h e)

end State

end AioMoqt.Agent
