import AioMoqt.Messages.Proofs.ParamBlocks
import AioMoqt.Relay.FetchUpstream

/-!
# When the publisher is asked for the requested range

What the publisher reads is the range of the FETCH sent; the absent fields of a request
without an end are sent as zeros, which ask for group 0 only.
-/

namespace AioMoqt.Relay

open AioMoqt.Messages AioMoqt.Lib AioMoqt.Lib.BigEndian AioMoqt.Lib.Reader

theorem validate_eq {filter filter' : LocationFilter} (h : filter.validate = .ok filter') :
    filter' = filter := by
  unfold LocationFilter.validate at h
  cases filter <;> simp only at h <;> (repeat' split at h) <;> cases h <;> rfl

/-- A range with an end as a filter: the same start and the same end. -/
theorem fromFetchRange_spec {range : FetchRange} {filter : LocationFilter} {stop : Nat}
    (hstop : range.endGroup = some stop) (h : LocationFilter.fromFetchRange range = .ok filter) :
    filter.validate = .ok filter ∧ filter ≠ .absoluteStart 0 0 ∧
      ∀ largest, filter.resolve largest true =
        ⟨legacyStart range, clipEnd (legacyEnd range) largest⟩ := by
  unfold LocationFilter.fromFetchRange at h
  simp only [hstop] at h
  cases hend : range.endObject.getD 0 with
  | zero =>
      simp only [hend, LocationFilter.absolute] at h
      obtain rfl := validate_eq h
      refine ⟨h, by simp, fun largest => ?_⟩
      simp [LocationFilter.resolve, LocationFilter.resolveStart, LocationFilter.ownEnd,
        legacyStart, legacyEnd, hstop, hend]
  | succ object =>
      simp only [hend, LocationFilter.absolute] at h
      obtain rfl := validate_eq h
      refine ⟨h, by simp, fun largest => ?_⟩
      simp [LocationFilter.resolve, LocationFilter.resolveStart, LocationFilter.ownEnd,
        legacyStart, legacyEnd, hstop, hend]

/-! ## What the publisher reads -/

theorem encodeUtf8_of_decode {bs : Bytes} {text : String} (h : decodeUtf8 bs = some text) :
    encodeUtf8 text = bs := by
  unfold decodeUtf8 at h
  dsimp only at h
  split at h
  · cases h
    rfl
  · cases h

section Wire

variable {prof : DraftProfile} {requestId : Nat} {parts : List Bytes} {name : Bytes}
variable {req : RangeRequest} {body : Bytes}

/-- A value a FETCH of a relay carries: GROUP_ORDER, or the range as a filter. -/
def RelayValue (prof : DraftProfile) (item : Nat × ParamValue) : Prop :=
  (∃ v, item.2 = .plain (.int v)) ∨
    ∃ filter : LocationFilter, item.2 = .plain (.locationFilter filter) ∧
      (prof.draft18 = true ∧ paramKind prof item.1 = some .locationFilter) ∧
      filter.validate = .ok filter ∧ filter ≠ .absoluteStart 0 0

theorem relayValue_reads {item : Nat × ParamValue} (h : RelayValue prof item)
    (fillCounted : Bool) (bufEnd : Nat) :
    ValueReads (pushParamValue prof) (pullParamValue prof fillCounted bufEnd) bufEnd
      (fun _ value => value) item := by
  obtain ⟨ptype, value⟩ := item
  intro bs hpush remaining pos hend
  rcases h with ⟨v, hv⟩ | ⟨filter, hv, ⟨hdraft, hkind⟩, hvalid, hopen⟩
  · cases hv
    exact pullParamValue_reads hpush (int_reads hpush bufEnd remaining pos) fillCounted
  · cases hv
    have hencode : filter.encode prof = .ok bs := by
      simpa [pushParamValue, pushPlainValue, hdraft, hkind, pushKindValue] using hpush
    have hread := LocationFilter.decode_reads hvalid hencode hend
    rw [show filter.received prof = filter by
      unfold LocationFilter.received
      rw [LocationFilter.untyped_of_ne hopen, ite_self]] at hread
    have hvalue : Reads (pullPlainValue prof bufEnd ptype remaining) pos bs
        (.locationFilter filter) := by
      unfold pullPlainValue
      rw [if_pos hdraft, hkind]
      exact hread.map _
    have hplain : pushPlainValue prof ptype (.locationFilter filter) = .ok bs := hpush
    exact pullParamValue_reads hplain hvalue fillCounted

/-- The block is read unless a value is out of its bounds. -/
theorem fetchParams_decides {params : Params} {items : List (Nat × ParamValue)} {bs : Bytes}
    (h : serializeParams prof params = .ok bs)
    (hitems : paramItems prof params = items.map fun item => (item.1, .one item.2))
    (hvalues : ∀ item ∈ items, RelayValue prof item) (hfresh : (items.map Prod.fst).Nodup)
    (scope : Option ParamScope) (pos : Nat) :
    Decides (deserializeParams prof (pos + bs.length) scope) pos bs
      (∀ item ∈ items, InstanceFits ParamValue.scalar scope prof (fun _ value => value) item)
      (collectParams prof items) := by
  obtain ⟨count, hcount, h⟩ := except_bind_eq_ok.mp h
  obtain ⟨tail, htail, h⟩ := except_bind_eq_ok.mp h
  cases h
  rw [hitems] at hcount htail
  rw [List.length_map] at hcount
  have hsame : items.map (receivedItem fun _ value => value) = items := List.map_id items
  have hblock := fun fillCounted => pullCounted_decides ParamValue.scalar scope hcount
    htail (fun item hitem => relayValue_reads (hvalues item hitem) fillCounted
      (pos + (count ++ tail).length)) (hfresh.imp fun hne heq => absurd heq hne)
    (Nat.le_refl (pos + (count ++ tail).length))
  rw [hsame] at hblock
  exact (deserializeItems_decides hblock).map _

/-- GROUP_ORDER at drafts 16 and 18. -/
def orderItems (req : RangeRequest) : List (Nat × ParamValue) :=
  [(ParamType.groupOrder, .plain (.int (askedOrder req.groupOrder)))]

/-- The parameters from draft 20 on, ascending. -/
def filteredItems (filter : LocationFilter) (req : RangeRequest) : List (Nat × ParamValue) :=
  (ParamType.locationFilter, .plain (.locationFilter filter)) :: orderItems req

theorem askedOrder_pos (order : Option Nat) : 0 < askedOrder order := by
  unfold askedOrder
  split <;> simp_all [Nat.pos_iff_ne_zero]

theorem sentParams_eq : (upstreamFetch requestId parts name req).sentParams =
    Dict.empty.insert ParamType.groupOrder (.one (.plain (.int (askedOrder req.groupOrder)))) := by
  have hne : askedOrder req.groupOrder ≠ 0 := (askedOrder_pos _).ne'
  simp [Fetch.sentParams, upstreamFetch, Params.setInt, sentGroupOrder, Option.filter, hne]

theorem paramItems_order :
    paramItems prof (upstreamFetch requestId parts name req).sentParams =
      (orderItems req).map fun item => (item.1, .one item.2) := by
  rw [sentParams_eq, paramItems, Dict.sorted_of_pairwise (List.pairwise_singleton _ _), ite_self]
  rfl

theorem paramItems_filtered (requestId : Nat) (parts : List Bytes) (name : Bytes)
    (req : RangeRequest) (hdelta : prof.paramsDeltaCoded = true) (filter : LocationFilter) :
    paramItems prof (Params.setPlain (upstreamFetch requestId parts name req).sentParams
      ParamType.locationFilter (.locationFilter filter)) =
      (filteredItems filter req).map fun item => (item.1, .one item.2) := by
  have hsorted : Dict.sorted (Params.setPlain (Dict.empty.insert ParamType.groupOrder
      (.one (.plain (.int (askedOrder req.groupOrder))))) ParamType.locationFilter
        (.locationFilter filter)) =
      [(ParamType.locationFilter, .one (.plain (.locationFilter filter))),
        (ParamType.groupOrder, .one (.plain (.int (askedOrder req.groupOrder))))] := by
    simp [Dict.sorted, Params.setPlain, Dict.insert, Dict.empty, List.mergeSort,
      List.MergeSort.Internal.splitInTwo, ParamType.groupOrder,
      ParamType.locationFilter, Dict.keys]
  rw [sentParams_eq, paramItems, if_pos hdelta, hsorted]
  rfl

/-- The group order the publisher lets pass: up to draft 14 it is a byte, later a parameter
with bounds. -/
def OrderReads (prof : DraftProfile) (order : Nat) : Prop :=
  prof.draft16 = true → order ≤ 2

theorem orderItems_fits {up : Draft} (hdraft : (profileFor up).draft16 = true) :
    (∀ item ∈ orderItems req, InstanceFits ParamValue.scalar (some (.message .fetch))
      (profileFor up) (fun _ value => value) item) ↔ OrderReads (profileFor up)
        (askedOrder req.groupOrder) := by
  have hpos := askedOrder_pos req.groupOrder
  have hbounds : paramBounds (profileFor up) ParamType.groupOrder = some (1, 2) := by
    unfold paramBounds
    rw [if_neg (by simp [hdraft])]
    rfl
  have htype : checkParamType (profileFor up) (some (.message .fetch)) ParamType.groupOrder =
      .ok () := by
    cases up <;> rfl
  simp only [orderItems, List.mem_singleton, forall_eq]
  constructor
  · rintro ⟨-, hvalue⟩ -
    unfold checkParamValue at hvalue
    rw [if_neg (by simp [ParamType.groupOrder, ParamType.deliveryTimeout]), hbounds] at hvalue
    simp only [ParamValue.scalar, PlainValue.scalar] at hvalue
    split at hvalue
    · next h => exact h.2
    · cases hvalue
  · intro horder
    refine ⟨htype, ?_⟩
    unfold checkParamValue
    rw [if_neg (by simp [ParamType.groupOrder, ParamType.deliveryTimeout]), hbounds]
    simp only [ParamValue.scalar, PlainValue.scalar]
    exact if_pos ⟨hpos, horder hdraft⟩

theorem filteredItems_fits {up : Draft} (hfiltered : (profileFor up).fetchLocationFilter = true)
    (filter : LocationFilter) :
    (∀ item ∈ filteredItems filter req, InstanceFits ParamValue.scalar (some (.message .fetch))
      (profileFor up) (fun _ value => value) item) ↔ OrderReads (profileFor up)
        (askedOrder req.groupOrder) := by
  have hdraft : (profileFor up).draft16 = true := by
    cases up <;> first | rfl | cases hfiltered
  have hfilter : InstanceFits ParamValue.scalar (some (.message .fetch)) (profileFor up)
      (fun _ value => value)
      (ParamType.locationFilter, .plain (.locationFilter filter)) := by
    cases up <;> first | exact ⟨rfl, rfl⟩ | cases hfiltered
  rw [filteredItems, List.forall_mem_cons, orderItems_fits hdraft]
  exact and_iff_right hfilter

/-- The range of the FETCH sent. -/
theorem pullTarget_decides {target : Bytes}
    (h : (upstreamFetch requestId parts name req).pushTarget prof = .ok target) (pos : Nat) :
    Decides (Fetch.pullTarget prof FetchType.standalone) pos target (NameReads prof parts name)
      { trackNamespace := some parts, trackName := some name
        range := (upstreamFetch requestId parts name req).range } := by
  obtain ⟨head, hhead, h⟩ := except_bind_eq_ok.mp h
  obtain ⟨startGroup, hstartGroup, h⟩ := except_bind_eq_ok.mp h
  obtain ⟨startObject, hstartObject, h⟩ := except_bind_eq_ok.mp h
  obtain ⟨endGroup, hendGroup, h⟩ := except_bind_eq_ok.mp h
  obtain ⟨endObject, hendObject, h⟩ := except_bind_eq_ok.mp h
  cases h
  simp only [List.append_assoc]
  apply (pullFullTrackName_decides hhead pos).bind_reads
  apply (pullVint_reads_of hstartGroup _).bind
  apply (pullVint_reads_of hstartObject _).bind
  apply (pullVint_reads_of hendGroup _).bind
  exact (pullVint_reads_of hendObject _).map _

theorem pullOrder_reads {fields : Bytes} (priority : Nat)
    (h : (if prof.draft16 then .ok [] else do
      let head ← pushUint8 (priority : Int)
      let groupOrder ← pushUint8 (askedOrder req.groupOrder : Int)
      pure (head ++ groupOrder) : Except MoqtError Bytes) = .ok fields) (pos : Nat) :
    Reads (Fetch.pullOrder prof) pos fields
      (if prof.draft16 then (128, 2) else (priority, askedOrder req.groupOrder)) := by
  unfold Fetch.pullOrder
  by_cases hdraft : prof.draft16
  · rw [if_pos hdraft] at h ⊢
    rw [if_pos hdraft]
    cases h
    exact Reads.pure pos _
  · rw [if_neg hdraft] at h ⊢
    rw [if_neg hdraft]
    obtain ⟨head, hhead, h⟩ := except_bind_eq_ok.mp h
    obtain ⟨tail, htail, h⟩ := except_bind_eq_ok.mp h
    cases h
    apply (pullUint8_reads_of hhead pos).bind
    exact (pullUint8_reads_of htail _).map _

/-- The parameters of a FETCH up to draft 18. -/
theorem typedParams_decides {up : Draft} {params : Bytes}
    (h : serializeParams (profileFor up) (if (profileFor up).draft16 then
      (upstreamFetch requestId parts name req).sentParams else .empty) = .ok params) :
    ∃ got, ∀ pos, Decides (deserializeParams (profileFor up) (pos + params.length)
      (some (.message .fetch))) pos params
        (OrderReads (profileFor up) (askedOrder req.groupOrder)) got := by
  by_cases hdraft : (profileFor up).draft16 = true
  · rw [if_pos hdraft] at h
    refine ⟨_, fun pos => (fetchParams_decides h paramItems_order ?_ ?_ _ pos).congr
      (orderItems_fits hdraft)⟩
    · simp [orderItems, RelayValue]
    · simp [orderItems]
  · rw [if_neg hdraft] at h
    have hempty : paramItems (profileFor up) (α := ParamValue) .empty =
        ([] : List (Nat × ParamValue)).map fun item => (item.1, .one item.2) := by
      cases up <;> first | rfl | exact absurd rfl hdraft
    refine ⟨_, fun pos => (fetchParams_decides h hempty (by simp) (by simp) _ pos).congr ?_⟩
    simp [OrderReads, hdraft]

/-- A FETCH of drafts 14 to 18 is read unless its name or its group order is refused. -/
theorem pullTyped_decides {up : Draft}
    (h : (upstreamFetch requestId parts name req).typedBody (profileFor up) = .ok body) :
    ∃ got : Fetch, (got.range = (upstreamFetch requestId parts name req).range ∧
        got.locationFilter = none) ∧
      ∀ pos, Decides (Fetch.pullTyped (profileFor up) (pos + body.length)) pos body
        (NameReads (profileFor up) parts name ∧
          OrderReads (profileFor up) (askedOrder req.groupOrder)) got := by
  obtain ⟨rid, hrid, h⟩ := except_bind_eq_ok.mp h
  obtain ⟨fields, hfields, h⟩ := except_bind_eq_ok.mp h
  obtain ⟨type, htype, h⟩ := except_bind_eq_ok.mp h
  obtain ⟨target, htarget, h⟩ := except_bind_eq_ok.mp h
  obtain ⟨params, hparams, h⟩ := except_bind_eq_ok.mp h
  cases h
  obtain ⟨gotParams, hgotParams⟩ := typedParams_decides hparams
  simp only [List.append_assoc]
  refine ⟨?got, ⟨?_, ?_⟩, fun pos => ?_⟩
  rotate_left 3
  · have hstop : pos + (rid ++ (fields ++ (type ++ (target ++ params)))).length =
        pos + rid.length + fields.length + type.length + target.length + params.length := by
      simp only [List.length_append]
      omega
    rw [hstop]
    apply (pullVint_reads_of hrid pos).bind_decides
    apply (pullOrder_reads 128 hfields _).bind_decides
    apply (pullVint_reads_of htype _).bind_decides
    apply (pullTarget_decides htarget _).bind
    apply (hgotParams _).bind_last_reads
    dsimp only
    rw [← apply_ite pure]
    exact Reads.pure _ _
  · split <;> rfl
  · split <;> rfl

/-- The filter is found again among the parameters. -/
theorem plain?_filteredItems (filter : LocationFilter) (req : RangeRequest) :
    Params.plain? (collectParams prof (filteredItems filter req)) ParamType.locationFilter =
      some (.locationFilter filter) := by
  have hrange : ParamType.locationFilter ∉ rangeFilters := by decide
  have horder : ParamType.groupOrder ∉ rangeFilters := by decide
  have hkeys : ParamType.groupOrder ≠ ParamType.locationFilter := by decide
  by_cases hdraft : prof.draft20 <;>
    simp [collectParams, storeParam, filteredItems, orderItems, hdraft, hrange, horder,
      Params.plain?, Dict.get?_insert, hkeys, hkeys.symm]

/-- A FETCH of drafts 20 and 22 too; its range is that of the filter. -/
theorem pullFiltered_decides {up : Draft} (hfiltered : (profileFor up).fetchLocationFilter = true)
    (h : (upstreamFetch requestId parts name req).filteredBody (profileFor up) = .ok body) :
    ∃ (filter : LocationFilter) (got : Fetch), got.locationFilter = some filter ∧
      LocationFilter.fromFetchRange (upstreamFetch requestId parts name req).range = .ok filter ∧
      ∀ pos, Decides (Fetch.pullFiltered (profileFor up) (pos + body.length)) pos body
        (NameReads (profileFor up) parts name ∧
          OrderReads (profileFor up) (askedOrder req.groupOrder)) got := by
  have hdelta : (profileFor up).paramsDeltaCoded = true := by
    cases up <;> first | rfl | cases hfiltered
  have hkind : (profileFor up).draft18 = true ∧
      paramKind (profileFor up) ParamType.locationFilter = some .locationFilter := by
    cases up <;> first | exact ⟨rfl, rfl⟩ | cases hfiltered
  obtain ⟨rid, hrid, h⟩ := except_bind_eq_ok.mp h
  rw [if_neg (by simp [upstreamFetch])] at h
  obtain ⟨head, hhead, h⟩ := except_bind_eq_ok.mp h
  obtain ⟨filter, hfilter, h⟩ := except_bind_eq_ok.mp h
  obtain ⟨params, hparams, h⟩ := except_bind_eq_ok.mp h
  cases h
  obtain ⟨hvalid, hopen, -⟩ := fromFetchRange_spec rfl hfilter
  have hblock := fun pos => (fetchParams_decides hparams
    (paramItems_filtered requestId parts name req hdelta filter)
    (by simp [filteredItems, orderItems, RelayValue, hvalid, hopen, hkind])
    (by simp [filteredItems, orderItems, ParamType.locationFilter, ParamType.groupOrder])
    (some (.message .fetch)) pos).congr (filteredItems_fits hfiltered filter)
  simp only [List.append_assoc]
  refine ⟨filter, ?got, ?_, hfilter, fun pos => ?_⟩
  rotate_left 2
  · have hstop : pos + (rid ++ (head ++ params)).length =
        pos + rid.length + head.length + params.length := by
      simp only [List.length_append]
      omega
    rw [hstop]
    apply (pullVint_reads_of hrid pos).bind_decides
    apply (pullFullTrackName_decides hhead _).bind
    exact (hblock _).map _
  · simp only [plain?_filteredItems]

/-- A FETCH that was sent is read as its range, and in no other way. -/
theorem deserialize_decides {up : Draft}
    (h : (upstreamFetch requestId parts name req).body (profileFor up) = .ok body) :
    ∃ got : Fetch, (∀ largest, fetchRange got largest =
        ⟨legacyStart (upstreamFetch requestId parts name req).range,
          clipEnd (legacyEnd (upstreamFetch requestId parts name req).range) largest⟩) ∧
      ∀ pos, Decides (Fetch.deserialize (profileFor up) (pos + body.length)) pos body
        (NameReads (profileFor up) parts name ∧
          OrderReads (profileFor up) (askedOrder req.groupOrder)) got := by
  unfold Fetch.body at h
  unfold Fetch.deserialize
  by_cases hfiltered : (profileFor up).fetchLocationFilter = true
  · simp only [if_pos hfiltered] at h ⊢
    obtain ⟨filter, got, hgot, hfilter, hread⟩ := pullFiltered_decides hfiltered h
    refine ⟨got, fun largest => ?_, hread⟩
    unfold fetchRange
    rw [hgot]
    exact (fromFetchRange_spec rfl hfilter).2.2 largest
  · simp only [if_neg hfiltered] at h ⊢
    obtain ⟨got, ⟨hrange, hnone⟩, hread⟩ := pullTyped_decides h
    refine ⟨got, fun largest => ?_, hread⟩
    unfold fetchRange
    rw [hnone, hrange]

/-! ## What can be sent -/

/-- The bounds `__post_init__` of a filter checks. -/
theorem bounded_ok_iff {filter : LocationFilter} {vs : List Nat} {start stop : Nat} :
    (∃ filter', (match vs.find? (u64Max < ·) with
      | some v => .error (.valueError s!"field {v} outside 0..2^64-1")
      | none => if stop < start then .error (.valueError s!"end_group {stop} < start_group {start}")
        else .ok filter : Except MoqtError LocationFilter) = .ok filter') ↔
      (∀ v ∈ vs, v ≤ u64Max) ∧ start ≤ stop := by
  cases hfound : vs.find? (u64Max < ·) with
  | some v =>
      have hlt := List.find?_some hfound
      have hmem := List.mem_of_find?_eq_some hfound
      simp only [decide_eq_true_eq] at hlt
      refine iff_of_false (by simp) fun h => absurd (h.1 v hmem) (by omega)
  | none =>
      have hall : ∀ v ∈ vs, v ≤ u64Max := by simpa using hfound
      dsimp only
      by_cases h : stop < start
      · rw [if_pos h]
        exact iff_of_false (by simp) fun hle => absurd hle.2 (by omega)
      · rw [if_neg h]
        exact iff_of_true ⟨_, rfl⟩ ⟨hall, by omega⟩

theorem fromFetchRange_ok_iff {group object stop endObject : Nat} :
    (∃ filter, LocationFilter.fromFetchRange
        ⟨some group, some object, some stop, some endObject⟩ = .ok filter) ↔
      (group ≤ u64Max ∧ object ≤ u64Max ∧ stop ≤ u64Max ∧ endObject ≤ u64Max + 1) ∧
        group ≤ stop := by
  cases endObject with
  | zero =>
      refine (@bounded_ok_iff (.absoluteGroupEnd group object stop) [group, object, stop] group
        stop).trans ?_
      simp
  | succ last =>
      refine (@bounded_ok_iff (.absoluteRange group object stop last) [group, object, stop, last]
        group stop).trans ?_
      simp

/-- A range the integers of the draft hold; from draft 20 on the end is inclusive, and not
before the group of the start. -/
structure RangeWrites (prof : DraftProfile) (range : FetchRange) : Prop where
  startGroup : range.startGroup.getD 0 < prof.vint.bound
  startObject : range.startObject.getD 0 < prof.vint.bound
  endGroup : range.endGroup.getD 0 < prof.vint.bound
  endObject : range.endObject.getD 0 < prof.vint.bound + if prof.fetchLocationFilter then 1 else 0
  ascending : prof.fetchLocationFilter = true → range.startGroup.getD 0 ≤ range.endGroup.getD 0

theorem fromFetchRange_sent_iff (requestId : Nat) (parts : List Bytes) (name : Bytes) {up : Draft}
    (hfiltered : (profileFor up).fetchLocationFilter = true) :
    (∃ filter, LocationFilter.fromFetchRange (upstreamFetch requestId parts name req).range =
      .ok filter) ↔ RangeWrites (profileFor up) req.fields := by
  have hbound : (profileFor up).vint.bound = u64Max + 1 := by
    cases up <;> first | rfl | cases hfiltered
  refine fromFetchRange_ok_iff.trans ?_
  constructor
  · rintro ⟨⟨hgroup, hobject, hstop, hend⟩, hle⟩
    refine ⟨?_, ?_, ?_, ?_, fun _ => hle⟩
    · omega
    · omega
    · omega
    · rw [if_pos hfiltered]
      omega
  · rintro ⟨hgroup, hobject, hstop, hend, hle⟩
    rw [if_pos hfiltered] at hend
    exact ⟨⟨by omega, by omega, by omega, by omega⟩, hle hfiltered⟩

theorem lt_of_pushVint {v : Nat} {bs : Bytes} (h : pushVint prof.vint (v : Int) = .ok bs) :
    v < prof.vint.bound := by
  unfold pushVint at h
  split at h
  · next hv => omega
  · cases h

/-- The group order as a byte or as the value of its parameter. -/
def OrderWrites (prof : DraftProfile) (order : Nat) : Prop :=
  order ≤ if prof.draft16 then 2 else 255

theorem orderReads_of_writes {order : Nat} (h : OrderWrites prof order) : OrderReads prof order := by
  intro hdraft
  simpa [OrderWrites, hdraft] using h

theorem groupOrder_ok {up : Draft} {order : Nat} (h : order ≤ 2) :
    ∃ bs, pushParamValue (profileFor up) ParamType.groupOrder (.plain (.int order)) = .ok bs := by
  simp only [pushParamValue_plain, pushPlainValue]
  by_cases hdraft : (profileFor up).draft18 = true
  · have hkind : paramKind (profileFor up) ParamType.groupOrder = some .uint8 := by
      cases up <;> rfl
    refine ⟨[UInt8.ofNat order], ?_⟩
    rw [if_pos hdraft, hkind]
    simp only [pushKindValue, pushUint8]
    rw [if_pos (by omega), Int.toNat_natCast]
  · have hplain : (profileFor up).locationParams = [] ∧ (profileFor up).uint8Params = [] := by
      cases up <;> first | exact ⟨rfl, rfl⟩ | exact absurd rfl hdraft
    obtain ⟨bs, hvint⟩ := pushVint_short (profileFor up) (v := order)
      (by unfold fullTrackNameMax; omega)
    refine ⟨bs, ?_⟩
    rw [if_neg hdraft, pushParityValue, hplain.1, hplain.2]
    exact hvint

theorem serializeParams_ok {params : Params} {items : List (Nat × ParamValue)}
    (hitems : paramItems prof params = items.map fun item => (item.1, .one item.2))
    (hsorted : (items.map Prod.fst).Pairwise (· ≤ ·)) (hlen : items.length ≤ fullTrackNameMax)
    (hkeys : ∀ item ∈ items, item.1 ≤ fullTrackNameMax)
    (hvalues : ∀ item ∈ items, ∃ bs, pushParamValue prof item.1 item.2 = .ok bs) :
    ∃ bs, serializeParams prof params = .ok bs := by
  obtain ⟨count, hcount⟩ := pushVint_short prof hlen
  obtain ⟨tail, htail⟩ := pushItems_ok 0
    (List.pairwise_cons.mpr ⟨fun _ _ => Nat.zero_le _, hsorted⟩) hkeys hvalues
  refine ⟨count ++ tail, ?_⟩
  rw [serializeParams, serializeWith, hitems, List.length_map, hcount, htail]
  rfl

theorem typedFields_ok {order : Nat} (horder : OrderWrites prof order) :
    ∃ fields, (if prof.draft16 then .ok [] else do
      let priority ← pushUint8 ((128 : Nat) : Int)
      let groupOrder ← pushUint8 (order : Int)
      pure (priority ++ groupOrder) : Except MoqtError Bytes) = .ok fields := by
  by_cases hdraft : prof.draft16 = true
  · exact ⟨[], if_pos hdraft⟩
  · have hle : order ≤ 255 := by simpa [OrderWrites, hdraft] using horder
    refine ⟨[128] ++ [UInt8.ofNat order], ?_⟩
    have hpush : pushUint8 (order : Int) = .ok [UInt8.ofNat order] := by
      rw [pushUint8, if_pos (by omega), Int.toNat_natCast]
    rw [if_neg hdraft, hpush]
    rfl

theorem typedParams_ok (requestId : Nat) (parts : List Bytes) (name : Bytes) {up : Draft}
    (horder : OrderWrites (profileFor up) (askedOrder req.groupOrder)) :
    ∃ params, serializeParams (profileFor up) (if (profileFor up).draft16 then
      (upstreamFetch requestId parts name req).sentParams else .empty) = .ok params := by
  by_cases hdraft : (profileFor up).draft16 = true
  · have hle : askedOrder req.groupOrder ≤ 2 := by simpa [OrderWrites, hdraft] using horder
    rw [if_pos hdraft]
    exact serializeParams_ok paramItems_order (by simp [orderItems])
      (by simp [orderItems, fullTrackNameMax])
      (by simp [orderItems, ParamType.groupOrder, fullTrackNameMax])
      (by simpa [orderItems] using groupOrder_ok hle)
  · rw [if_neg hdraft]
    obtain ⟨count, hcount⟩ := pushVint_short (profileFor up) (Nat.zero_le _)
    refine ⟨count ++ [], ?_⟩
    have hempty : paramItems (profileFor up) (.empty : Params) = [] := by
      cases up <;> first | rfl | exact absurd rfl hdraft
    rw [serializeParams, serializeWith, hempty, List.length_nil, hcount]
    rfl

theorem typedBody_ok {up : Draft} (hname : NameReads (profileFor up) parts name)
    (horder : OrderWrites (profileFor up) (askedOrder req.groupOrder))
    (hrequest : requestId < (profileFor up).vint.bound)
    (hrange : RangeWrites (profileFor up) req.fields)
    (htyped : (profileFor up).fetchLocationFilter = false) :
    ∃ body, (upstreamFetch requestId parts name req).typedBody (profileFor up) = .ok body := by
  have hend := hrange.endObject
  rw [if_neg (by simp [htyped])] at hend
  obtain ⟨rid, hrid⟩ := pushVint_nat hrequest
  obtain ⟨fields, hfields⟩ := typedFields_ok horder
  obtain ⟨type, htype⟩ := pushVint_short (profileFor up) (v := FetchType.standalone)
    (by decide)
  obtain ⟨head, hhead⟩ := pushFullTrackName_ok hname
  obtain ⟨startGroup, hstartGroup⟩ := pushVint_nat hrange.startGroup
  obtain ⟨startObject, hstartObject⟩ := pushVint_nat hrange.startObject
  obtain ⟨endGroup, hendGroup⟩ := pushVint_nat hrange.endGroup
  obtain ⟨endObject, hendObject⟩ := pushVint_nat hend
  obtain ⟨params, hparams⟩ := typedParams_ok requestId parts name horder
  have htarget : (upstreamFetch requestId parts name req).pushTarget (profileFor up) =
      .ok (head ++ startGroup ++ startObject ++ endGroup ++ endObject) := by
    simp only [Fetch.pushTarget, Fetch.pushName, upstreamFetch, pushRequiredVint, hhead,
      hstartGroup, hstartObject, hendGroup, hendObject, if_true]
    rfl
  refine ⟨rid ++ fields ++ type ++ (head ++ startGroup ++ startObject ++ endGroup ++ endObject) ++
    params, ?_⟩
  simp only [upstreamFetch] at htarget hparams
  simp only [Fetch.typedBody, upstreamFetch, Option.getD_none, Option.getD_some, hrid, hfields,
    htype, htarget, hparams]
  rfl

theorem filteredBody_ok {up : Draft} (hname : NameReads (profileFor up) parts name)
    (horder : OrderWrites (profileFor up) (askedOrder req.groupOrder))
    (hrequest : requestId < (profileFor up).vint.bound)
    (hrange : RangeWrites (profileFor up) req.fields)
    (hfiltered : (profileFor up).fetchLocationFilter = true) :
    ∃ body, (upstreamFetch requestId parts name req).filteredBody (profileFor up) = .ok body := by
  have hup : (profileFor up).draft16 = true ∧ (profileFor up).paramsDeltaCoded = true ∧
      (profileFor up).vi64 = true ∧ (profileFor up).draft18 = true ∧
      paramKind (profileFor up) ParamType.locationFilter = some .locationFilter := by
    cases up <;> first | exact ⟨rfl, rfl, rfl, rfl, rfl⟩ | cases hfiltered
  obtain ⟨hdraft, hdelta, hvi64, h18, hkind⟩ := hup
  have hle : askedOrder req.groupOrder ≤ 2 := by simpa [OrderWrites, hdraft] using horder
  obtain ⟨rid, hrid⟩ := pushVint_nat hrequest
  obtain ⟨head, hhead⟩ := pushFullTrackName_ok hname
  obtain ⟨filter, hfilter⟩ := (fromFetchRange_sent_iff requestId parts name hfiltered).mpr hrange
  obtain ⟨hvalid, -, -⟩ := fromFetchRange_spec rfl hfilter
  obtain ⟨value, hvalue⟩ := LocationFilter.encode_ok hvi64 hvalid
  have hpush : pushParamValue (profileFor up) ParamType.locationFilter
      (.plain (.locationFilter filter)) = .ok value := by
    rw [pushParamValue_plain, pushPlainValue, if_pos h18, hkind]
    exact hvalue
  obtain ⟨params, hparams⟩ := serializeParams_ok
    (paramItems_filtered requestId parts name req hdelta filter)
    (by simp [filteredItems, orderItems, ParamType.locationFilter, ParamType.groupOrder])
    (by simp [filteredItems, orderItems, fullTrackNameMax])
    (by simp [filteredItems, orderItems, ParamType.locationFilter, ParamType.groupOrder,
      fullTrackNameMax])
    (by simpa [filteredItems, orderItems] using ⟨⟨value, hpush⟩, groupOrder_ok hle⟩)
  refine ⟨rid ++ head ++ params, ?_⟩
  simp only [upstreamFetch] at hfilter hparams
  simp only [Fetch.filteredBody, Fetch.pushName, upstreamFetch, hrid, hhead, hfilter, ne_eq,
    not_true_eq_false, if_false]
  exact except_bind_eq_ok.mpr ⟨rid, rfl, except_bind_eq_ok.mpr ⟨head, rfl,
    except_bind_eq_ok.mpr ⟨filter, rfl, except_bind_eq_ok.mpr ⟨params, hparams, rfl⟩⟩⟩⟩

/-- A FETCH that was written. -/
theorem writes_of_body {up : Draft}
    (h : (upstreamFetch requestId parts name req).body (profileFor up) = .ok body) :
    requestId < (profileFor up).vint.bound ∧ RangeWrites (profileFor up) req.fields ∧
      ((profileFor up).draft16 = false → askedOrder req.groupOrder ≤ 255) := by
  unfold Fetch.body at h
  by_cases hfiltered : (profileFor up).fetchLocationFilter = true
  · rw [if_pos hfiltered] at h
    obtain ⟨rid, hrid, h⟩ := except_bind_eq_ok.mp h
    rw [if_neg (by simp [upstreamFetch])] at h
    obtain ⟨head, hhead, h⟩ := except_bind_eq_ok.mp h
    obtain ⟨filter, hfilter, h⟩ := except_bind_eq_ok.mp h
    refine ⟨lt_of_pushVint hrid, (fromFetchRange_sent_iff requestId parts name hfiltered).mp
      ⟨filter, hfilter⟩, ?_⟩
    intro h14
    cases up <;> first | exact absurd h14 (by decide) | exact absurd hfiltered (by decide)
  · rw [if_neg hfiltered] at h
    obtain ⟨rid, hrid, h⟩ := except_bind_eq_ok.mp h
    obtain ⟨fields, hfields, h⟩ := except_bind_eq_ok.mp h
    obtain ⟨type, htype, h⟩ := except_bind_eq_ok.mp h
    obtain ⟨target, htarget, h⟩ := except_bind_eq_ok.mp h
    obtain ⟨head, hhead, htarget⟩ := except_bind_eq_ok.mp htarget
    obtain ⟨startGroup, hstartGroup, htarget⟩ := except_bind_eq_ok.mp htarget
    obtain ⟨startObject, hstartObject, htarget⟩ := except_bind_eq_ok.mp htarget
    obtain ⟨endGroup, hendGroup, htarget⟩ := except_bind_eq_ok.mp htarget
    obtain ⟨endObject, hendObject, htarget⟩ := except_bind_eq_ok.mp htarget
    have hend : req.fields.endObject.getD 0 < (profileFor up).vint.bound := lt_of_pushVint hendObject
    refine ⟨lt_of_pushVint hrid, ⟨lt_of_pushVint hstartGroup, lt_of_pushVint hstartObject,
      lt_of_pushVint hendGroup, ?_, fun h => absurd h hfiltered⟩, ?_⟩
    · rwa [if_neg hfiltered]
    · intro hdraft
      rw [if_neg (by simp [hdraft])] at hfields
      obtain ⟨priority, -, hfields⟩ := except_bind_eq_ok.mp hfields
      obtain ⟨order, horder, -⟩ := except_bind_eq_ok.mp hfields
      unfold pushUint8 at horder
      split at horder
      · next hv =>
          have hlt : ((askedOrder req.groupOrder : Nat) : Int) < 256 := hv.2
          omega
      · cases horder

/-- A request that can be sent to a publisher of draft `up`, which takes it: the name is UTF-8
and inside its bounds, the group order is one the publisher knows, and the numbers are inside
those of its draft, with an end that is not before the start where a filter carries them. -/
structure RangeRequest.Sendable (req : RangeRequest) (up : Draft) (requestId : Nat)
    (parts : List Bytes) (name : Bytes) : Prop where
  text : (decodeUtf8 name).isSome = true
  name : NameReads (profileFor up) parts name
  order : OrderWrites (profileFor up) (askedOrder req.groupOrder)
  request : requestId < (profileFor up).vint.bound
  range : RangeWrites (profileFor up) req.fields

theorem body_ok {up : Draft} (h : req.Sendable up requestId parts name) :
    ∃ body, (upstreamFetch requestId parts name req).body (profileFor up) = .ok body := by
  unfold Fetch.body
  by_cases hfiltered : (profileFor up).fetchLocationFilter = true
  · rw [if_pos hfiltered]
    exact filteredBody_ok h.name h.order h.request h.range hfiltered
  · rw [if_neg hfiltered]
    exact typedBody_ok h.name h.order h.request h.range (by simpa using hfiltered)

/-- The publisher reads the range of the FETCH sent, if one is sent to it that it takes. -/
theorem asksUpstream_iff {up : Draft} {largest : Option Location} :
    AsksUpstream up requestId parts name req largest ↔
      req.Sendable up requestId parts name ∧
        LocationRange.denoted ⟨legacyStart (upstreamFetch requestId parts name req).range,
          clipEnd (legacyEnd (upstreamFetch requestId parts name req).range) largest⟩ =
            (req.range largest).denoted := by
  constructor
  · rintro ⟨body, got, hsent, hgot, hsame⟩
    obtain ⟨text, htext, hsent⟩ := Option.bind_eq_some_iff.mp hsent
    rw [encodeUtf8_of_decode htext] at hsent
    have hbody : (upstreamFetch requestId parts name req).body (profileFor up) = .ok body := by
      cases hpush : (upstreamFetch requestId parts name req).body (profileFor up) with
      | error e =>
          rw [hpush] at hsent
          cases hsent
      | ok bytes =>
          rw [hpush] at hsent
          cases hsent
          rfl
    obtain ⟨hrequest, hrange, hbyte⟩ := writes_of_body hbody
    obtain ⟨got', hresolved, hdecides⟩ := deserialize_decides hbody
    have htaken := (hdecides 0).holds [] _ (hgot 0 [])
    have hread := (hdecides 0).reads htaken []
    rw [hgot 0 []] at hread
    cases hread
    rw [← hresolved]
    refine ⟨⟨by simp [htext], htaken.1, ?_, hrequest, hrange⟩, hsame⟩
    unfold OrderWrites
    split
    · next hdraft => exact htaken.2 hdraft
    · next hdraft => exact hbyte (by simpa using hdraft)
  · rintro ⟨h, hsame⟩
    obtain ⟨text, htext⟩ := Option.isSome_iff_exists.mp h.text
    obtain ⟨body, hbody⟩ := body_ok h
    obtain ⟨got, hresolved, hdecides⟩ := deserialize_decides hbody
    refine ⟨body, got, ?_, fun pos => (hdecides pos).reads ⟨h.name, orderReads_of_writes h.order⟩,
      ?_⟩
    · rw [fetchUpstream, htext, Option.bind_some, encodeUtf8_of_decode htext, hbody]
      rfl
    · rw [hresolved]
      exact hsame

end Wire

/-! ## Requests -/

/-- The forms a FETCH has once it is read. -/
theorem decoded_cases {down : Draft} {bufEnd : Nat} {cur last : Cursor} {msg : Fetch}
    (h : Fetch.deserialize (profileFor down) bufEnd cur = .ok (msg, last)) :
    msg.locationFilter = none ∧ (isJoining msg.fetchType ∨ msg.range.endGroup ≠ none) ∨
      ¬ isJoining msg.fetchType ∧
        msg.range = ((msg.locationFilter.getD .none).fetchRange).getD {} := by
  unfold Fetch.deserialize at h
  split at h
  · obtain ⟨_, _, -, h⟩ := bind_eq_ok.mp h
    obtain ⟨_, _, -, h⟩ := bind_eq_ok.mp h
    obtain ⟨_, _, -, h⟩ := bind_eq_ok.mp h
    cases h
    exact .inr ⟨by simp [isJoining, FetchType.standalone, FetchType.relativeJoining,
      FetchType.absoluteJoining], rfl⟩
  · left
    obtain ⟨_, _, -, h⟩ := bind_eq_ok.mp h
    obtain ⟨_, _, -, h⟩ := bind_eq_ok.mp h
    obtain ⟨fetchType, _, -, h⟩ := bind_eq_ok.mp h
    obtain ⟨target, _, htarget, h⟩ := bind_eq_ok.mp h
    obtain ⟨_, _, -, h⟩ := bind_eq_ok.mp h
    have hend : isJoining fetchType ∨ target.range.endGroup ≠ none := by
      unfold Fetch.pullTarget at htarget
      split at htarget
      · obtain ⟨_, _, -, htarget⟩ := bind_eq_ok.mp htarget
        obtain ⟨_, _, -, htarget⟩ := bind_eq_ok.mp htarget
        obtain ⟨_, _, -, htarget⟩ := bind_eq_ok.mp htarget
        obtain ⟨_, _, -, htarget⟩ := bind_eq_ok.mp htarget
        obtain ⟨_, _, -, htarget⟩ := bind_eq_ok.mp htarget
        cases htarget
        right
        simp
      · split at htarget
        · next hjoining => exact .inl hjoining
        · cases htarget
    split at h
    · cases h
      exact ⟨rfl, hend⟩
    · cases h
      exact ⟨rfl, hend⟩

/-- A filter without an end, and where group 0 holds all it asks for: the range that is
sent for it ends with that group. -/
def openCarried (filter : LocationFilter) (largest : Location) : Prop :=
  match filter with
  | .none => largest.group = 0
  | .absoluteStart group object => largest.group = 0 ∨ largest < .mk group object
  | .relativeStart groups => largest.group = 0 ∧ 0 < groups
  | _ => False

/-- The request names its end, or group 0 is all there is of what it asks for. -/
def RangeRequest.Carried (req : RangeRequest) (largest : Option Location) : Prop :=
  match req with
  | .fill _ _ _ => True
  | .fetch msg => msg.range.endGroup ≠ none ∨
      ∃ loc ∈ largest, openCarried (msg.locationFilter.getD .none) loc

/-- A FETCH that came with a filter asks for the range of that filter. -/
theorem fetchRange_of_filter {msg : Fetch}
    (h : msg.range = ((msg.locationFilter.getD .none).fetchRange).getD {})
    (largest : Option Location) :
    fetchRange msg largest = (msg.locationFilter.getD .none).resolve largest true := by
  unfold fetchRange
  cases hfilter : msg.locationFilter with
  | some filter => rfl
  | none =>
      rw [hfilter] at h
      rw [h]
      rfl

/-- The bounds `_fetch_upstream` hands on, resolved, are those of a closed filter. -/
theorem resolve_closed {filter : LocationFilter} (h : (filter.fetchRange.getD {}).endGroup ≠ none)
    (largest : Option Location) :
    filter.resolve largest true = ⟨legacyStart (filter.fetchRange.getD {}),
      clipEnd (legacyEnd (filter.fetchRange.getD {})) largest⟩ := by
  cases filter with
  | absoluteGroupEnd group object stop => rfl
  | absoluteRange group object stop endObject => rfl
  | _ => exact absurd rfl h

theorem fillRange_spec {fill subscription : Option LocationFilter} {largest : Option Location}
    {rng : Location × Location} (h : fillRange fill subscription largest = some rng) :
    ∃ loc, largest = some loc ∧ rng.2 ≤ loc := by
  cases largest with
  | none => cases h
  | some loc =>
      refine ⟨loc, rfl, ?_⟩
      simp only [fillRange, LocationFilter.resolve, clipEnd, if_true] at h
      split at h
      · cases h
      · cases h
        cases (fill.getD (subscription.getD .none)).ownEnd with
        | none => exact le_rfl
        | some stop => exact min_le_right stop loc

theorem fencedFill_stop {rng asked : Location × Location} {fence : Option Nat}
    (h : fencedFill rng fence = some asked) : asked.2 = rng.2 := by
  unfold fencedFill at h
  split at h
  · cases h
    rfl
  · split at h
    · split at h
      · cases h
      · cases h
        rfl
    · cases h
      rfl

theorem legacyEnd_fill (start stop : Location) (order : Nat) :
    legacyEnd (RangeRequest.fill start stop order).fields = some stop := by
  by_cases hwhole : stop.object = u64Max
  · simp only [RangeRequest.fields, hwhole, if_true, legacyEnd, Option.getD_some]
    rw [← hwhole, Location.mk_eta]
  · simp only [RangeRequest.fields, hwhole, if_false, legacyEnd, Option.getD_some]
    rw [Location.mk_eta]

/-- A request that names its end asks for what its range fields say. -/
theorem range_of_closed {down : Draft} {largest : Option Location} {req : RangeRequest}
    (hreq : req.Received down largest) (hend : req.fields.endGroup ≠ none) :
    req.range largest = ⟨legacyStart req.fields, clipEnd (legacyEnd req.fields) largest⟩ := by
  cases hreq with
  | standalone decoded type =>
      rcases decoded_cases decoded with ⟨hnone, -⟩ | ⟨-, hrange⟩
      · simp only [RangeRequest.range, fetchRange, hnone, RangeRequest.fields]
      · simp only [RangeRequest.range, RangeRequest.fields] at hend ⊢
        rw [fetchRange_of_filter hrange, hrange]
        rw [hrange] at hend
        exact resolve_closed hend largest
  | joining decoded type joined =>
      rcases decoded_cases decoded with ⟨hnone, -⟩ | ⟨hjoining, -⟩
      · simp only [RangeRequest.range, fetchRange, hnone, RangeRequest.fields]
      · exact absurd type hjoining
  | fill asked fenced =>
      obtain ⟨loc, rfl, hle⟩ := fillRange_spec asked
      rw [← fencedFill_stop fenced] at hle
      rw [legacyEnd_fill]
      simp only [RangeRequest.range, clipEnd, Option.elim_some, min_eq_left hle]
      rfl

theorem joinedRange_end {msg : Fetch} {anchor : Location} {fence : Option Nat}
    {range : FetchRange} (h : joinedRange msg anchor fence = some range) :
    range.endGroup = some anchor.group := by
  unfold joinedRange at h
  split at h
  · cases h
    rfl
  · split at h
    · split at h
      · cases h
      · cases h
        rfl
    · cases h
      rfl

/-- A request that names no end is a FETCH with an open filter. -/
theorem open_cases {down : Draft} {largest : Option Location} {req : RangeRequest}
    (hreq : req.Received down largest) (hend : req.fields.endGroup = none) :
    ∃ msg, req = .fetch msg ∧
      msg.range = ((msg.locationFilter.getD .none).fetchRange).getD {} := by
  cases hreq with
  | standalone decoded type =>
      rcases decoded_cases decoded with ⟨-, hjoining | hrange⟩ | ⟨-, hrange⟩
      · exact absurd hjoining type
      · exact absurd hend hrange
      · exact ⟨_, rfl, hrange⟩
  | joining decoded type joined =>
      rw [RangeRequest.fields, joinedRange_end joined] at hend
      cases hend
  | fill asked fenced => cases hend

theorem legacyEnd_sent (requestId : Nat) (parts : List Bytes) (name : Bytes) {req : RangeRequest}
    (h : req.fields.endGroup ≠ none) :
    legacyEnd (upstreamFetch requestId parts name req).range = legacyEnd req.fields := by
  obtain ⟨group, hgroup⟩ := Option.ne_none_iff_exists'.mp h
  simp [legacyEnd, upstreamFetch, hgroup]

theorem legacyStart_sent (requestId : Nat) (parts : List Bytes) (name : Bytes)
    (req : RangeRequest) :
    legacyStart (upstreamFetch requestId parts name req).range = legacyStart req.fields := rfl

/-! ## Requests without an end -/

/-- What is sent for them ends with group 0. -/
theorem legacyEnd_open (requestId : Nat) (parts : List Bytes) (name : Bytes) {msg : Fetch}
    (hrange : msg.range = ((msg.locationFilter.getD .none).fetchRange).getD {})
    (hend : msg.range.endGroup = none) :
    legacyEnd (upstreamFetch requestId parts name (.fetch msg)).range =
      some (.mk 0 u64Max) := by
  have hobject : msg.range.endObject.getD 0 = 0 := by
    rw [hrange] at hend ⊢
    generalize msg.locationFilter.getD .none = filter at hend ⊢
    cases filter <;> first | rfl | cases hend
  simp [legacyEnd, upstreamFetch, RangeRequest.fields, hend, hobject]

section Open

variable {start start' largest : Location}

/-- With nothing published such a request has no end at all. -/
theorem denoted_ne_unbounded (start start' : Location) :
    LocationRange.denoted ⟨start', some (.mk 0 u64Max)⟩ ≠ LocationRange.denoted ⟨start, none⟩ := by
  intro heq
  have hmem : max start (.mk 1 0) ∈ LocationRange.denoted ⟨start, none⟩ :=
    ⟨le_max_left _ _, by simp⟩
  rw [← heq] at hmem
  have hle : Location.mk 1 0 ≤ .mk 0 u64Max :=
    le_trans (le_max_right start (.mk 1 0)) (hmem.2 _ rfl)
  rw [Location.le_iff] at hle
  simp at hle

theorem not_le_groupZero (h : largest.group ≠ 0) : ¬ largest ≤ .mk 0 u64Max := by
  rw [Location.le_iff, Location.group_mk]
  omega

theorem min_groupZero (h : largest.group = 0) (hmax : largest.object ≤ u64Max) :
    min (.mk 0 u64Max) largest = largest := by
  apply min_eq_right
  rw [Location.le_iff, Location.group_mk, Location.object_mk]
  omega

theorem mem_denoted {loc stop : Location} :
    loc ∈ LocationRange.denoted ⟨start, some stop⟩ ↔ start ≤ loc ∧ loc ≤ stop := by
  simp [LocationRange.denoted]

theorem denoted_eq_empty (h : largest < start) :
    LocationRange.denoted ⟨start, some largest⟩ = ∅ := by
  ext loc
  rw [mem_denoted, Set.mem_empty_iff_false, iff_false]
  rintro ⟨hstart, hstop⟩
  exact absurd (lt_of_le_of_lt hstop h) (not_lt.mpr hstart)

/-- Of a range with a Location past group 0, that Location is not asked for. -/
theorem denoted_ne_of_mem (h : start ≤ largest) (hgroup : largest.group ≠ 0) :
    LocationRange.denoted ⟨start', some (min (.mk 0 u64Max) largest)⟩ ≠
      LocationRange.denoted ⟨start, some largest⟩ := by
  intro heq
  have hmem : largest ∈ LocationRange.denoted ⟨start, some largest⟩ :=
    mem_denoted.mpr ⟨h, le_rfl⟩
  rw [← heq, mem_denoted] at hmem
  exact not_le_groupZero hgroup (le_trans hmem.2 (min_le_left _ _))

theorem zero_le (loc : Location) : Location.mk 0 0 ≤ loc := by
  rw [Location.le_iff, Location.group_mk, Location.object_mk]
  omega

/-- Of an empty range, the start of the track is asked for. -/
theorem denoted_ne_of_lt (h : largest < start) :
    LocationRange.denoted ⟨.mk 0 0, some (min (.mk 0 u64Max) largest)⟩ ≠
      LocationRange.denoted ⟨start, some largest⟩ := by
  intro heq
  have hmem : Location.mk 0 0 ∈
      LocationRange.denoted ⟨.mk 0 0, some (min (.mk 0 u64Max) largest)⟩ :=
    mem_denoted.mpr ⟨le_rfl, zero_le _⟩
  rw [heq, denoted_eq_empty h] at hmem
  exact hmem

theorem open_denoted_iff {filter : LocationFilter}
    (hend : (filter.fetchRange.getD {}).endGroup = none) (hmax : largest.object ≤ u64Max) :
    LocationRange.denoted ⟨legacyStart (filter.fetchRange.getD {}),
        some (min (.mk 0 u64Max) largest)⟩ =
      (filter.resolve (some largest) true).denoted ↔ openCarried filter largest := by
  cases filter with
  | absoluteGroupEnd group object stop => cases hend
  | absoluteRange group object stop endObject => cases hend
  | none =>
      constructor
      · intro heq
        by_contra hgroup
        exact denoted_ne_of_mem (zero_le largest) hgroup heq
      · intro hgroup
        rw [min_groupZero hgroup hmax]
        rfl
  | absoluteStart group object =>
      constructor
      · intro heq
        by_contra hnot
        simp only [openCarried, not_or, not_lt] at hnot
        exact denoted_ne_of_mem hnot.2 hnot.1 heq
      · rintro (hgroup | hlt)
        · rw [min_groupZero hgroup hmax]
          rfl
        · have hsent : min (.mk 0 u64Max) largest < .mk group object :=
            lt_of_le_of_lt (min_le_right _ _) hlt
          exact (denoted_eq_empty hsent).trans (denoted_eq_empty hlt).symm
  | nextObject =>
      refine iff_of_false ?_ (fun h => h)
      apply denoted_ne_of_lt
      exact Location.lt_iff.mpr (.inr ⟨rfl, Nat.lt_succ_self _⟩)
  | relativeStart groups =>
      constructor
      · intro heq
        by_contra hnot
        simp only [openCarried, not_and_or, Nat.not_lt, Nat.le_zero] at hnot
        by_cases hgroups : groups = 0
        · refine denoted_ne_of_lt ?_ heq
          rw [Location.lt_iff]
          left
          simp [LocationFilter.resolveStart, hgroups]
        · have hgroup := hnot.resolve_right hgroups
          refine denoted_ne_of_mem ?_ hgroup heq
          rw [Location.le_iff]
          simp only [LocationFilter.resolveStart, Option.elim_some, Location.group_mk,
            Location.object_mk]
          omega
      · rintro ⟨hgroup, hpos⟩
        have hstart : LocationFilter.resolveStart (.relativeStart groups) (some largest) =
            .mk 0 0 := by
          simp only [LocationFilter.resolveStart, Option.elim_some, hgroup]
          rw [Nat.sub_eq_zero_of_le (by omega)]
        rw [min_groupZero hgroup hmax, LocationFilter.resolve, hstart]
        rfl

end Open

/-- What is sent denotes what was asked for exactly when the request names its end, or group 0
is all there is of it. -/
theorem sent_denoted_iff {down : Draft} {largest : Option Location} {req : RangeRequest}
    (hreq : req.Received down largest) (hmax : ∀ loc ∈ largest, loc.object ≤ u64Max)
    (requestId : Nat) (parts : List Bytes) (name : Bytes) :
    LocationRange.denoted ⟨legacyStart (upstreamFetch requestId parts name req).range,
        clipEnd (legacyEnd (upstreamFetch requestId parts name req).range) largest⟩ =
      (req.range largest).denoted ↔ req.Carried largest := by
  rw [legacyStart_sent]
  by_cases hend : req.fields.endGroup = none
  · obtain ⟨msg, rfl, hrange⟩ := open_cases hreq hend
    simp only [RangeRequest.range, RangeRequest.fields, RangeRequest.Carried] at hend ⊢
    rw [legacyEnd_open requestId parts name hrange hend, fetchRange_of_filter hrange]
    rw [hrange] at hend ⊢
    cases largest with
    | none =>
        refine iff_of_false ?_ (by simp [hend])
        have hown : (msg.locationFilter.getD .none).ownEnd = none := by
          generalize msg.locationFilter.getD .none = filter at hend ⊢
          cases filter <;> first | rfl | cases hend
        simp only [clipEnd, LocationFilter.resolve, hown, if_true]
        exact denoted_ne_unbounded _ _
    | some loc =>
        have hopen := open_denoted_iff hend (hmax loc rfl)
        simpa [clipEnd, hend] using hopen
  · rw [range_of_closed hreq hend, legacyEnd_sent requestId parts name hend]
    refine iff_of_true rfl ?_
    cases req with
    | fetch msg => exact .inl hend
    | fill start stop order => trivial

/-- The publisher is asked for what the subscriber asked for exactly when it can be sent a
FETCH and the request names its end, or group 0 is all there is of it. -/
theorem fetchUpstream_denoted_iff {down : Draft} {largest : Option Location} {req : RangeRequest}
    (hreq : req.Received down largest) (hmax : ∀ loc ∈ largest, loc.object ≤ u64Max)
    (up : Draft) (requestId : Nat) (parts : List Bytes) (name : Bytes) :
    AsksUpstream up requestId parts name req largest ↔
      req.Sendable up requestId parts name ∧ req.Carried largest := by
  rw [asksUpstream_iff, sent_denoted_iff hreq hmax requestId parts name]

/-! A FETCH of draft 20 without a filter, for a track whose largest object is (3, 0), and
what a publisher of draft 14 is sent for it. -/

def unfilteredFetch : Fetch :=
  { fetchType := FetchType.standalone, requestId := 0, groupOrder := some 1
    trackNamespace := some [[0x61]], trackName := some [0x62]
    range := ⟨some 0, some 0, none, none⟩, parameters := .empty }

def unfilteredBody : Bytes :=
  [0x00, 0x80, 0x01, 0x01, 0x01, 0x01, 0x61, 0x01, 0x62, 0x00, 0x00, 0x00, 0x00, 0x00]

theorem unfilteredFetch_received (largest : Option Location) :
    RangeRequest.Received .d20 largest (.fetch unfilteredFetch) := by
  have hdecoded : Fetch.deserialize (profileFor .d20) 7
      ⟨0, [0x00, 0x01, 0x01, 0x61, 0x01, 0x62, 0x00]⟩ = .ok (unfilteredFetch, ⟨7, []⟩) := rfl
  exact .standalone hdecoded (by decide)

theorem unfilteredFetch_sent :
    (upstreamFetch 0 [[0x61]] [0x62] (.fetch unfilteredFetch)).body (profileFor .d14) =
      .ok unfilteredBody := rfl

theorem unfilteredFetch_got :
    Fetch.deserialize (profileFor .d14) 14 ⟨0, unfilteredBody ++ []⟩ =
      .ok ({ unfilteredFetch with range := ⟨some 0, some 0, some 0, some 0⟩ }, ⟨14, []⟩) := rfl

theorem unfilteredFetch_sendable :
    (RangeRequest.fetch unfilteredFetch).Sendable .d14 0 [[0x61]] [0x62] where
  text := by decide +kernel
  name := ⟨by decide, by decide, by decide⟩
  order := by
    unfold OrderWrites
    decide
  request := by decide
  range := ⟨by decide, by decide, by decide, by decide, by decide⟩

/-- With nothing behind group 0 it asks for the right range. -/
theorem fetchUpstream_denoted_iff_unfiltered :
    AsksUpstream .d14 0 [[0x61]] [0x62] (.fetch unfilteredFetch) (some (.mk 0 4)) :=
  (fetchUpstream_denoted_iff (unfilteredFetch_received (some (.mk 0 4))) (by decide) .d14 0 [[0x61]]
    [0x62]).mpr ⟨unfilteredFetch_sendable, .inr ⟨.mk 0 4, rfl, rfl⟩⟩

/-- The publisher is asked for group 0 where the subscriber asked for groups 0 to 3. -/
theorem fetchUpstream_denoted_ne :
    ¬ ∀ (down up : Draft) (largest : Option Location) (req : RangeRequest) (requestId : Nat)
      (parts : List Bytes) (name body : Bytes) (bufEnd pos : Nat) (rest : Bytes) (got : Fetch)
      (last : Cursor), req.Received down largest → (∀ loc ∈ largest, loc.object ≤ u64Max) →
      (upstreamFetch requestId parts name req).body (profileFor up) = .ok body →
      Fetch.deserialize (profileFor up) bufEnd ⟨pos, body ++ rest⟩ = .ok (got, last) →
      (fetchRange got largest).denoted = (req.range largest).denoted := by
  intro h
  have heq := h .d20 .d14 (some (.mk 3 0)) (.fetch unfilteredFetch) 0 [[0x61]] [0x62]
    unfilteredBody 14 0 [] _ _ (unfilteredFetch_received _) (by decide) unfilteredFetch_sent
    unfilteredFetch_got
  exact denoted_ne_of_mem (zero_le (.mk 3 0)) (by decide) heq

end AioMoqt.Relay
