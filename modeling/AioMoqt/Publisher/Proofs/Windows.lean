import AioMoqt.Publisher.Windows

/-!
# One filter, five readings

The windows of the publisher and of the relay, `resolve`, the filters of drafts 14 to 18 and the
range of a fill admit the same Locations.
-/

namespace AioMoqt.Publisher

open AioMoqt.Lib AioMoqt.Lib.BigEndian AioMoqt.Lib.Reader AioMoqt.Messages AioMoqt.Relay

/-! ## Windows -/

/-- The Locations inside a window. -/
def FilterWindow.Admits (window : FilterWindow) (x : Location) : Prop :=
  window.1 ≤ x ∧ ∀ endGroup ∈ window.2.1,
    x.group < endGroup ∨ x.group = endGroup ∧ ∀ last ∈ window.2.2, x.object ≤ last

/-- A publisher's subscription in Forward State 1 with a window. -/
structure Subscription.Forwards (sub : Subscription) (window : FilterWindow) : Prop where
  forward : sub.forward = true
  window : sub.window = .ofFilter window

/-- A relay's subscriber in Forward State 1 with a window. -/
structure Downstream.Forwards (d : Downstream) (window : FilterWindow) : Prop where
  forward : d.forward = true
  window : d.window = .ofFilter window

theorem Subscription.Forwards.passes_iff {sub : Subscription} {window : FilterWindow}
    (h : sub.Forwards window) (x : Location) :
    sub.passes x.group x.object = true ↔ FilterWindow.Admits window x := by
  obtain ⟨start, endGroup, last⟩ := window
  unfold Subscription.passes FilterWindow.Admits
  rw [h.forward, h.window]
  show (true && (decide (start ≤ x) && _)) = true ↔ _
  rw [Bool.true_and, Bool.and_eq_true, decide_eq_true_iff]
  cases endGroup <;> cases last <;> simp

theorem Downstream.Forwards.passes_iff {d : Downstream} {window : FilterWindow}
    (h : Downstream.Forwards d window) (x : Location) :
    d.passes x = true ↔ FilterWindow.Admits window x := by
  obtain ⟨start, endGroup, last⟩ := window
  unfold Downstream.passes FilterWindow.Admits
  rw [h.forward, h.window]
  show ((true && decide (start ≤ x)) && _) = true ↔ _
  rw [Bool.true_and, Bool.and_eq_true, decide_eq_true_iff]
  cases endGroup <;> cases last <;> simp [Relay.Window.ofFilter]

/-- **The window is the range of `resolve`**, whose whole End Group ends at the last object id. -/
theorem admits_locationWindow (filter : LocationFilter) (largest : Option Location) {x : Location}
    (hx : x.object ≤ u64Max) :
    FilterWindow.Admits (locationWindow filter largest) x ↔
      x ∈ (filter.resolve largest false).denoted := by
  have hgroupEnd : ∀ endGroup, x ≤ Location.mk endGroup u64Max ↔
      x.group < endGroup ∨ x.group = endGroup := fun endGroup => by
    rw [Location.le_iff, Location.group_mk, Location.object_mk]
    simp [hx]
  have hrange : ∀ endGroup endObject, x ≤ Location.mk endGroup endObject ↔
      x.group < endGroup ∨ x.group = endGroup ∧ x.object ≤ endObject := fun _ _ =>
    Location.le_iff
  cases filter <;>
    simp [FilterWindow.Admits, locationWindow, unfilteredWindow, LocationFilter.resolve,
      LocationFilter.resolveStart, LocationFilter.ownEnd, LocationRange.denoted, hgroupEnd, hrange]

/-! ## Fills -/

/-- The Locations of the fill of a subscription. -/
def Filled (filter : LocationFilter) (largest : Option Location) (x : Location) : Prop :=
  ∃ range, fillRange none (some filter) largest = some range ∧ range.1 ≤ x ∧ x ≤ range.2

/-- Behind the Largest Location; everything is where nothing was published. -/
def Later (largest : Option Location) (x : Location) : Prop := ∀ l ∈ largest, l < x

/-- A fill has what the filter has up to the Largest Location. -/
theorem filled_iff {filter : LocationFilter} {largest : Option Location} {x : Location} :
    Filled filter largest x ↔
      ¬ Later largest x ∧ x ∈ (filter.resolve largest false).denoted := by
  cases largest with
  | none => simp [Filled, fillRange, Later]
  | some l =>
      have hstop : ∀ stop : Option Location,
          x ≤ stop.elim l (fun stop => min stop l) ↔ x ≤ l ∧ ∀ s ∈ stop, x ≤ s := fun stop => by
        cases stop <;> simp [and_comm]
      unfold Filled fillRange
      simp only [Option.getD_none, Option.getD_some, LocationFilter.resolve, if_true, clipEnd,
        LocationRange.denoted, Later]
      have hmem := hstop filter.ownEnd
      generalize filter.ownEnd.elim l (fun stop => min stop l) = stop at hmem ⊢
      split
      · rename_i hempty
        simp only [reduceCtorEq, false_and, exists_false, false_iff]
        rintro ⟨hlater, hstart, hend⟩
        simp only [Option.mem_some_iff, forall_eq', not_lt] at hlater
        exact absurd (hstart.trans (hmem.mpr ⟨hlater, hend⟩)) (not_le.mpr hempty)
      · simp only [Option.some.injEq, exists_eq_left', hmem]
        simp
        tauto

/-! ## The filters of drafts 14 to 18 -/

/-- A filter as its decoders return it: the fields of its type, which the codec bounds. -/
inductive Received : SubscriptionFilter → Prop where
  | nextGroupStart : Received ⟨some 1, none, none, none⟩
  | latestObject : Received ⟨some 2, none, none, none⟩
  | absoluteStart {group object : Nat} (hgroup : group ≤ u64Max) (hobject : object ≤ u64Max) :
      Received ⟨some 3, some group, some object, none⟩
  | absoluteRange {group object stop : Nat} (hgroup : group ≤ u64Max) (hobject : object ≤ u64Max)
      (hstop : stop ≤ u64Max) : Received ⟨some 4, some group, some object, some stop⟩

/-- An End Group behind its Start Group. -/
def Inverted (filter : SubscriptionFilter) : Prop :=
  ∃ start ∈ filter.startGroup, ∃ stop ∈ filter.endGroup, stop < start

theorem vint_le (prof : DraftProfile) {cur next : Cursor} {v : Nat}
    (h : pullVint prof.vint cur = .ok (v, next)) : v ≤ u64Max := by
  have hbound : prof.vint.bound ≤ u64Max + 1 := by
    unfold DraftProfile.vint
    split <;> decide
  unfold pullVint Reader.int at h
  split at h
  · cases h
  · rename_i hdec
    cases h
    exact Nat.le_of_lt_succ ((prof.vint.dec_lt hdec).trans_le hbound)

theorem pullStart_eq_ok {prof : DraftProfile} {filterType : Nat} {cur next : Cursor}
    {start : Option Nat × Option Nat}
    (h : SubscriptionFilter.pullStart prof filterType cur = .ok (start, next)) :
    if filterType = 3 ∨ filterType = 4 then
      ∃ group object, start = (some group, some object) ∧ group ≤ u64Max ∧ object ≤ u64Max
    else start = (none, none) := by
  unfold SubscriptionFilter.pullStart at h
  split
  · rename_i htype
    rw [if_pos htype] at h
    obtain ⟨group, cur₁, hgroup, h⟩ := bind_eq_ok.mp h
    obtain ⟨object, cur₂, hobject, h⟩ := bind_eq_ok.mp h
    obtain ⟨rfl, -⟩ := pure_eq_ok.mp h
    exact ⟨group, object, rfl, vint_le prof hgroup, vint_le prof hobject⟩
  · rename_i htype
    rw [if_neg htype] at h
    exact (pure_eq_ok.mp h).1.symm

theorem pullEnd_eq_ok {prof : DraftProfile} {filterType : Nat} {cur next : Cursor}
    {stop : Option Nat} (h : SubscriptionFilter.pullEnd prof filterType cur = .ok (stop, next)) :
    if filterType = 4 then ∃ group, stop = some group ∧ group ≤ u64Max else stop = none := by
  unfold SubscriptionFilter.pullEnd at h
  split
  · rename_i htype
    rw [if_pos htype] at h
    obtain ⟨group, cur₁, hgroup, h⟩ := bind_eq_ok.mp h
    obtain ⟨rfl, -⟩ := pure_eq_ok.mp h
    exact ⟨group, rfl, vint_le prof hgroup⟩
  · rename_i htype
    rw [if_neg htype] at h
    exact (pure_eq_ok.mp h).1.symm

theorem resolveEnd_le {prof : DraftProfile} {start : Option Nat} {delta : Nat} {stop : Option Nat}
    (hdelta : delta ≤ u64Max)
    (h : SubscriptionFilter.resolveEnd prof start (some delta) = .ok stop) :
    ∃ group, stop = some group ∧ group ≤ u64Max := by
  unfold SubscriptionFilter.resolveEnd at h
  dsimp only at h
  split at h
  · split at h
    · cases h
    · rename_i hle
      cases h
      exact ⟨_, rfl, Nat.not_lt.mp hle⟩
  · cases h
    exact ⟨delta, rfl, hdelta⟩

/-- What `_decode_filter` returns. -/
theorem decode_received {prof : DraftProfile} {raw : Bytes} {filter : SubscriptionFilter}
    (h : SubscriptionFilter.decode prof raw = .ok filter) : Received filter := by
  unfold SubscriptionFilter.decode Reader.within at h
  obtain ⟨fields, hfields, h⟩ := except_bind_eq_ok.mp h
  obtain ⟨stop, hresolve, h⟩ := except_bind_eq_ok.mp h
  cases h
  cases hread : SubscriptionFilter.pullFields prof true ⟨0, raw⟩ with
  | error e => simp [hread, Except.map] at hfields
  | ok r =>
      obtain ⟨fields', last⟩ := r
      obtain rfl : fields' = fields := by simpa [hread, Except.map] using hfields
      unfold SubscriptionFilter.pullFields at hread
      obtain ⟨filterType, cur₁, -, hread⟩ := bind_eq_ok.mp hread
      obtain ⟨_, cur₂, hchecked, hread⟩ := bind_eq_ok.mp hread
      obtain ⟨start, cur₃, hstart, hread⟩ := bind_eq_ok.mp hread
      obtain ⟨delta, cur₄, hdelta, hread⟩ := bind_eq_ok.mp hread
      obtain ⟨rfl, -⟩ := pure_eq_ok.mp hread
      have hstart' := pullStart_eq_ok hstart
      have hdelta' := pullEnd_eq_ok hdelta
      have htype : filterType = 1 ∨ filterType = 2 ∨ filterType = 3 ∨ filterType = 4 := by
        by_contra hbad
        simp [SubscriptionFilter.checkType, hbad, ofExcept_eq_ok] at hchecked
      rcases htype with rfl | rfl | rfl | rfl
      · obtain rfl : start = (none, none) := hstart'
        obtain rfl : delta = none := hdelta'
        cases hresolve
        exact .nextGroupStart
      · obtain rfl : start = (none, none) := hstart'
        obtain rfl : delta = none := hdelta'
        cases hresolve
        exact .latestObject
      · obtain ⟨group, object, rfl, hgroup, hobject⟩ := hstart'
        obtain rfl : delta = none := hdelta'
        cases hresolve
        exact .absoluteStart hgroup hobject
      · obtain ⟨group, object, rfl, hgroup, hobject⟩ := hstart'
        obtain ⟨delta, rfl, hle⟩ := hdelta'
        obtain ⟨stop, rfl, hstop⟩ := resolveEnd_le hle hresolve
        exact .absoluteRange hgroup hobject hstop

/-- A filter that is not inverted is a Location Filter. -/
theorem fromSubscriptionFilter_received {filter : SubscriptionFilter} (h : Received filter)
    (hrange : ¬ Inverted filter) : ∃ locationFilter,
      LocationFilter.fromSubscriptionFilter filter (filter.filterType.getD 0) = .ok locationFilter ∧
        locationFilter.subscriptionFilter = some filter ∧
        ∀ largest, filterWindow filter largest = locationWindow locationFilter largest := by
  have hbounded : ∀ vs : List Nat, (∀ v ∈ vs, v ≤ u64Max) → vs.find? (u64Max < ·) = none :=
    fun vs hvs => List.find?_eq_none.mpr fun v hv => by simpa using hvs v hv
  cases h with
  | nextGroupStart => exact ⟨.relativeStart 0, rfl, rfl, fun largest => by cases largest <;> rfl⟩
  | latestObject => exact ⟨.nextObject, rfl, rfl, fun largest => rfl⟩
  | @absoluteStart group object hgroup hobject =>
      refine ⟨.absoluteStart group object, ?_, rfl, fun largest => rfl⟩
      have hfind := hbounded [group, object] (by simp [hgroup, hobject])
      simp only [Option.getD_some, LocationFilter.fromSubscriptionFilter, LocationFilter.absolute,
        LocationFilter.validate]
      rw [hfind, if_neg (lt_irrefl 0)]
  | @absoluteRange group object stop hgroup hobject hstop =>
      refine ⟨.absoluteGroupEnd group object stop, ?_, rfl, fun largest => rfl⟩
      have hle : ¬ stop < group := fun hlt => hrange ⟨group, rfl, stop, rfl, hlt⟩
      have hfind := hbounded [group, object, stop] (by simp [hgroup, hobject, hstop])
      simp only [Option.getD_some, LocationFilter.fromSubscriptionFilter, LocationFilter.absolute,
        LocationFilter.validate]
      rw [hfind, if_neg hle]

/-! ## One filter -/

/-- **The readings of a filter agree.**  Both windows admit what `resolve` denotes; the fill and
what comes later have it once; and the filters that drafts 14 to 18 decode open the window of the
Location Filter that they are written as. -/
theorem filters_agree :
    (∀ (filter : LocationFilter) (largest : Option Location) (x : Location), x.object ≤ u64Max →
      ∀ (sub : Subscription) (d : Downstream), sub.Forwards (locationWindow filter largest) →
        Downstream.Forwards d (locationWindow filter largest) →
        (sub.passes x.group x.object = true ↔ x ∈ (filter.resolve largest false).denoted) ∧
        (d.passes x = true ↔ x ∈ (filter.resolve largest false).denoted) ∧
        (d.passes x = true ↔
          Filled filter largest x ∨ Later largest x ∧ d.passes x = true) ∧
        ¬ (Filled filter largest x ∧ Later largest x ∧ d.passes x = true)) ∧
    (∀ filter : SubscriptionFilter, Received filter → ¬ Inverted filter → ∃ locationFilter,
      LocationFilter.fromSubscriptionFilter filter (filter.filterType.getD 0) =
          .ok locationFilter ∧
        locationFilter.subscriptionFilter = some filter ∧
        (∀ largest, filterWindow filter largest = locationWindow locationFilter largest) ∧
        ∀ beside largest, subscriptionWindow none filter largest =
          subscriptionWindow (some locationFilter) beside largest) ∧
    ∀ (prof : DraftProfile) (raw : Bytes) (filter : SubscriptionFilter),
      SubscriptionFilter.decode prof raw = .ok filter → Received filter := by
  refine ⟨fun filter largest x hx sub d hsub hd => ?_, fun filter hreceived hrange => ?_,
    fun prof raw filter => decode_received⟩
  case refine_2 =>
    obtain ⟨locationFilter, hfrom, hback, hwindow⟩ :=
      fromSubscriptionFilter_received hreceived hrange
    exact ⟨locationFilter, hfrom, hback, hwindow, fun _ largest => hwindow largest⟩
  have hpublisher := (hsub.passes_iff x).trans (admits_locationWindow filter largest hx)
  have hrelay := (hd.passes_iff x).trans (admits_locationWindow filter largest hx)
  refine ⟨hpublisher, hrelay, ?_, ?_⟩
  · rw [hrelay, filled_iff]
    tauto
  · rw [filled_iff]
    tauto

/-- A subscription to groups 2 to 4, joined at {3, 7}. -/
theorem filters_agree_joined :
    let filter := LocationFilter.absoluteGroupEnd 2 0 4
    let sub : Subscription := { window := .ofFilter (locationWindow filter (some (.mk 3 7))) }
    let d : Downstream :=
      { id := 0, session := 0, forward := true, endsWithDone := true
        window := .ofFilter (locationWindow filter (some (.mk 3 7)))
        filters := fun _ _ _ _ => true }
    (sub.passes 4 9 = true ↔ Location.mk 4 9 ∈ (filter.resolve (some (.mk 3 7)) false).denoted) ∧
      (d.passes (.mk 3 7) = true ↔ Filled filter (some (.mk 3 7)) (.mk 3 7) ∨
        Later (some (.mk 3 7)) (.mk 3 7) ∧ d.passes (.mk 3 7) = true) ∧
      ∃ locationFilter, LocationFilter.fromSubscriptionFilter ⟨some 4, some 2, some 0, some 4⟩ 4 =
        .ok locationFilter ∧
        locationFilter.subscriptionFilter = some ⟨some 4, some 2, some 0, some 4⟩ ∧
        (∀ largest, filterWindow ⟨some 4, some 2, some 0, some 4⟩ largest =
          locationWindow locationFilter largest) ∧
        ∀ beside largest, subscriptionWindow none ⟨some 4, some 2, some 0, some 4⟩ largest =
          subscriptionWindow (some locationFilter) beside largest :=
  ⟨(filters_agree.1 (.absoluteGroupEnd 2 0 4) (some (.mk 3 7)) (.mk 4 9) (by decide) _
      { id := 0, session := 0, forward := true, endsWithDone := true
        window := .ofFilter (locationWindow (.absoluteGroupEnd 2 0 4) (some (.mk 3 7)))
        filters := fun _ _ _ _ => true } ⟨rfl, rfl⟩ ⟨rfl, rfl⟩).1,
    (filters_agree.1 (.absoluteGroupEnd 2 0 4) (some (.mk 3 7)) (.mk 3 7) (by decide)
      { window := .ofFilter (locationWindow (.absoluteGroupEnd 2 0 4) (some (.mk 3 7))) } _
      ⟨rfl, rfl⟩ ⟨rfl, rfl⟩).2.2.1,
    filters_agree.2.1 _ (filters_agree.2.2 (profileFor .d14) [0x04, 0x02, 0x00, 0x04] _
      (by decide +kernel))
      (by rintro ⟨start, hstart, stop, hstop, hlt⟩; cases hstart; cases hstop; omega)⟩

/-- An inverted range that draft 14 takes is no Location Filter, and an object id past 2^64-1 is
inside a window of a whole End Group. -/
theorem filters_disagree :
    (SubscriptionFilter.decode (profileFor .d14) [0x04, 0x05, 0x00, 0x03] =
        .ok ⟨some 4, some 5, some 0, some 3⟩ ∧
      filterWindow ⟨some 4, some 5, some 0, some 3⟩ none = (.mk 5 0, some 3, none) ∧
      LocationFilter.fromSubscriptionFilter ⟨some 4, some 5, some 0, some 3⟩ 4 =
        .error (.valueError "end_group 3 < start_group 5")) ∧
    ({ window := .ofFilter (locationWindow (.absoluteGroupEnd 0 0 0) none) } :
      Subscription).passes 0 (2 ^ 64) = true ∧
      Location.mk 0 (2 ^ 64) ∉
        ((LocationFilter.absoluteGroupEnd 0 0 0).resolve none false).denoted := by
  refine ⟨⟨by decide +kernel, by decide +kernel, by decide +kernel⟩, by decide +kernel, ?_⟩
  rintro ⟨-, hend⟩
  have hle := hend (.mk 0 u64Max) rfl
  rw [Location.le_iff] at hle
  simp [u64Max] at hle

end AioMoqt.Publisher
