import AioMoqt.Messages.Location

/-!
# Filter values on the wire

What `LocationFilter.decode` and `RangeFilter.decode` read back of an encoded filter.
The decoder accepts, and takes exactly the bytes of the encoder.
-/

namespace AioMoqt.Messages

open AioMoqt.Lib AioMoqt.Lib.BigEndian AioMoqt.Lib.Reader

/-! ## Integers -/

theorem pullVint_reads_of {code : PrefixCode} {v : Nat} {bs : Bytes}
    (h : pushVint code (v : Int) = .ok bs) (pos : Nat) : Reads (pullVint code) pos bs v := by
  unfold pushVint at h
  split at h
  · next hv =>
      cases h
      have hlt : v < code.bound := by omega
      exact pullVint_reads code hlt pos
  · cases h

theorem pullUint8_reads_of {v : Nat} {bs : Bytes} (h : pushUint8 (v : Int) = .ok bs)
    (pos : Nat) : Reads pullUint8 pos bs v := by
  unfold pushUint8 at h
  split at h
  · next hv =>
      cases h
      have hlt : v < 256 := by omega
      exact pullUint8_reads hlt pos
  · cases h

theorem length_pushVint_pos {code : PrefixCode} {v : Int} {bs : Bytes}
    (h : pushVint code v = .ok bs) : 0 < bs.length := by
  unfold pushVint at h
  split at h
  · next hv =>
      cases h
      exact code.length_enc_pos (by omega)
  · cases h

theorem truncatedAs_reads {α : Type} {r : Reader MoqtError α} {pos : Nat} {bs : Bytes} {a : α}
    (hr : Reads r pos bs a) (reason : String) : Reads (truncatedAs reason r) pos bs a := by
  intro rest
  unfold truncatedAs
  rw [hr rest]

section

variable {prof : DraftProfile}

theorem vint_of_vi64 (hprof : prof.vi64 = true) : prof.vint = Buffer.vi64 := by
  simp [DraftProfile.vint, hprof]

theorem pushVint_vi64 (hprof : prof.vi64 = true) {v : Nat} (hv : v ≤ u64Max) :
    ∃ bs, pushVint prof.vint (v : Int) = .ok bs ∧ bs.length ≤ 9 := by
  rw [vint_of_vi64 hprof]
  have hlt : v < Buffer.vi64.bound := lt_of_le_of_lt hv (by decide)
  refine ⟨Buffer.vi64.enc v, ?_, Buffer.length_vi64_le v⟩
  rw [pushVint_ok _ (by omega) (by exact_mod_cast hlt), Int.toNat_natCast]

theorem pushSized_vi64 (hprof : prof.vi64 = true) {body : Bytes} (hbody : body.length ≤ u64Max) :
    ∃ bs, pushSized prof body = .ok bs := by
  obtain ⟨len, hlen, -⟩ := pushVint_vi64 hprof hbody
  exact ⟨len ++ body, by simp [pushSized, hlen, Bind.bind, Except.bind, Pure.pure, Except.pure]⟩

/-! ## Location Filters -/

theorem pullVints_reads {vs : List Nat} :
    ∀ {bs : Bytes}, LocationFilter.pushVints prof (vs.map (↑)) = .ok bs → ∀ pos,
      Reads (pullVints prof vs.length) pos bs vs := by
  induction vs with
  | nil =>
      intro bs h pos
      cases h
      exact Reads.pure pos []
  | cons v vs ih =>
      intro bs h pos
      obtain ⟨head, hhead, h⟩ := except_bind_eq_ok.mp h
      obtain ⟨tail, htail, h⟩ := except_bind_eq_ok.mp h
      cases h
      apply (pullVint_reads_of hhead pos).bind
      exact (ih htail _).map _

/-- The integers up to the position where they end. -/
theorem pullVintsTo_reads {vs : List Nat} :
    ∀ {n : Nat} {bs : Bytes}, vs.length ≤ n →
      LocationFilter.pushVints prof (vs.map (↑)) = .ok bs → ∀ pos,
      Reads (pullVintsTo prof (pos + bs.length) n) pos bs vs := by
  induction vs with
  | nil =>
      intro n bs _ h pos
      cases h
      cases n with
      | zero => exact Reads.tell_bind (Reads.guard (by simp) (Reads.pure pos []))
      | succ n =>
          apply Reads.tell_bind
          rw [if_neg (by simp)]
          exact Reads.pure pos []
  | cons v vs ih =>
      intro n bs hn h pos
      obtain ⟨head, hhead, h⟩ := except_bind_eq_ok.mp h
      obtain ⟨tail, htail, h⟩ := except_bind_eq_ok.mp h
      cases h
      have hpos := length_pushVint_pos hhead
      cases n with
      | zero => simp at hn
      | succ n =>
          apply Reads.tell_bind
          rw [if_pos (by simp only [List.length_append]; omega)]
          apply (pullVint_reads_of hhead pos).bind
          rw [List.length_append, ← Nat.add_assoc]
          exact (ih (by simpa using hn) htail _).map _

namespace LocationFilter

/-- What `validate` looks at: the fields stay in range, and the end is not before the start. -/
theorem bounded_of_valid {filter : LocationFilter} {vs : List Nat} {start stop : Nat}
    {outside : Nat → MoqtError} {inverted : MoqtError}
    (h : (match vs.find? (u64Max < ·) with
      | some v => Except.error (outside v)
      | Option.none => if stop < start then .error inverted else .ok filter) = .ok filter) :
    (∀ v ∈ vs, v ≤ u64Max) ∧ start ≤ stop := by
  split at h
  · cases h
  · next hfind =>
      split_ifs at h with hlt
      exact ⟨fun v hv => by simpa using List.find?_eq_none.mp hfind v hv, Nat.le_of_not_lt hlt⟩

/-- The fields of a valid filter are natural numbers, and are read back as the filter. -/
theorem fields_of_valid {filter : LocationFilter} (h : filter.validate = .ok filter) :
    ∃ fields : List Nat, filter.toFields.2 = fields.map (↑) ∧
      fieldCount filter.toFields.1 = some fields.length ∧
      ofFields filter.toFields.1 fields = .ok filter := by
  cases filter with
  | none => exact ⟨[], rfl, rfl, rfl⟩
  | nextObject => exact ⟨[], rfl, rfl, rfl⟩
  | relativeStart groups => exact ⟨[groups], rfl, rfl, rfl⟩
  | absoluteStart group object => exact ⟨[group, object], rfl, rfl, rfl⟩
  | absoluteGroupEnd group object stop =>
      obtain ⟨hbound, hle⟩ := bounded_of_valid h
      have hmax := hbound stop (by simp)
      refine ⟨[group, object, stop - group], ?_, rfl, ?_⟩
      · simp [toFields, Int.ofNat_sub hle]
      · simp [ofFields, Nat.sub_add_cancel hle, Nat.not_lt.mpr hmax]
  | absoluteRange group object stop endObject =>
      obtain ⟨hbound, hle⟩ := bounded_of_valid h
      have hmax := hbound stop (by simp)
      refine ⟨[group, object, stop - group, endObject], ?_, rfl, ?_⟩
      · simp [toFields, Int.ofNat_sub hle]
      · simp [ofFields, Nat.sub_add_cancel hle, Nat.not_lt.mpr hmax]

/-- The number of its fields tells a filter apart, but for the next object. -/
theorem ofFields_length {type : Nat} {fields : List Nat} {filter : LocationFilter}
    (h : ofFields type fields = .ok filter) (hnext : filter ≠ nextObject) :
    ofFields fields.length fields = .ok filter := by
  match fields with
  | [] =>
      simp only [ofFields, Except.ok.injEq] at h
      split at h
      · exact absurd h.symm hnext
      · simpa [ofFields] using h
  | [_] => exact h
  | [_, _] => exact h
  | _ :: _ :: _ :: _ => exact h

/-- Fields in range go on the wire, in nine bytes each. -/
theorem pushVints_vi64 (hprof : prof.vi64 = true) {vs : List Nat} (hvs : ∀ v ∈ vs, v ≤ u64Max) :
    ∃ bs, pushVints prof (vs.map (↑)) = .ok bs ∧ bs.length ≤ 9 * vs.length := by
  induction vs with
  | nil => exact ⟨[], rfl, by simp⟩
  | cons v vs ih =>
      obtain ⟨head, hhead, hlen⟩ := pushVint_vi64 hprof (hvs v (by simp))
      obtain ⟨tail, htail, hlen'⟩ := ih fun w hw => hvs w (by simp [hw])
      refine ⟨head ++ tail, ?_, ?_⟩
      · simp [pushVints, hhead, htail, Bind.bind, Except.bind, Pure.pure, Except.pure]
      · simp only [List.length_append, List.length_cons]
        omega

theorem pullTyped_reads {type : Nat} {fields : List Nat} {head tail : Bytes}
    (hcount : fieldCount type = some fields.length)
    (hhead : pushVint prof.vint type = .ok head)
    (htail : pushVints prof (fields.map (↑)) = .ok tail) {bufEnd pos : Nat}
    (hend : pos + (head ++ tail).length ≤ bufEnd) :
    Reads (pullTyped prof bufEnd) pos (head ++ tail) (type, fields) := by
  rw [List.length_append] at hend
  apply (pullVint_reads_of hhead pos).bind
  simp only [hcount]
  apply (pullVints_reads htail _).bind_last
  apply Reads.tell_bind
  exact Reads.guard (by omega) (Reads.pure _ _)

theorem pullUntyped_reads {fields : List Nat} {inner bs : Bytes} (hlen : fields.length ≤ 4)
    (hinner : pushVints prof (fields.map (↑)) = .ok inner) (h : pushSized prof inner = .ok bs)
    {bufEnd pos : Nat} (hend : pos + bs.length ≤ bufEnd) :
    Reads (pullUntyped prof bufEnd) pos bs
      (if fields = [0, 0] then (5, []) else (fields.length, fields)) := by
  obtain ⟨len, hsize, h⟩ := except_bind_eq_ok.mp h
  cases h
  rw [List.length_append] at hend
  apply (pullVint_reads_of hsize pos).bind
  apply Reads.tell_bind
  apply Reads.guard (by omega)
  apply (pullVintsTo_reads hlen hinner _).bind_last
  apply Reads.tell_bind
  exact Reads.guard (by simp) (Reads.pure _ _)

/-- What a draft without types reads for a filter: an open filter from the start of the
track is the unfiltered one. -/
def untyped : LocationFilter → LocationFilter
  | absoluteStart 0 0 => none
  | filter => filter

/-- The filter that comes back. -/
def received (prof : DraftProfile) (filter : LocationFilter) : LocationFilter :=
  if prof.locationFilterTyped then filter else filter.untyped

theorem untyped_of_ne {filter : LocationFilter} (h : filter ≠ absoluteStart 0 0) :
    filter.untyped = filter := by
  unfold untyped
  split
  · exact absurd rfl h
  · rfl

/-- The unfiltered form asks for what the open filter from the start asks for. -/
theorem resolve_untyped (filter : LocationFilter) (largest : Option Location) (fetch : Bool) :
    filter.untyped.resolve largest fetch = filter.resolve largest fetch := by
  unfold untyped
  split <;> rfl

/-- The fields of a valid filter stay in range. -/
theorem fields_le {filter : LocationFilter} (h : filter.validate = .ok filter) {fields : List Nat}
    (hfields : filter.toFields.2 = fields.map (↑)) : ∀ v ∈ fields, v ≤ u64Max := by
  have hmem : ∀ v ∈ fields, (v : Int) ∈ filter.toFields.2 := by
    intro v hv
    rw [hfields]
    exact List.mem_map_of_mem hv
  intro v hv
  have hwire := hmem v hv
  cases filter with
  | none => simp [toFields] at hwire
  | nextObject => simp [toFields] at hwire
  | _ =>
      have hbound := (bounded_of_valid h).1
      simp only [toFields, List.mem_cons, List.not_mem_nil, or_false] at hwire
      simp only [List.mem_cons, List.not_mem_nil, or_false, forall_eq_or_imp, forall_eq] at hbound
      omega

/-- The decoder takes exactly what the encoder wrote. -/
theorem decode_reads {filter : LocationFilter} {bs : Bytes} (hvalid : filter.validate = .ok filter)
    (h : filter.encode prof = .ok bs) {bufEnd pos : Nat} (hend : pos + bs.length ≤ bufEnd) :
    Reads (decode prof bufEnd) pos bs (filter.received prof) := by
  obtain ⟨fields, hfields, hcount, hof⟩ := fields_of_valid hvalid
  unfold encode at h
  unfold received decode
  by_cases htyped : prof.locationFilterTyped = true
  · rw [if_pos htyped] at h ⊢
    rw [if_pos htyped]
    obtain ⟨head, hhead, h⟩ := except_bind_eq_ok.mp h
    obtain ⟨tail, htail, h⟩ := except_bind_eq_ok.mp h
    cases h
    rw [hfields] at htail
    apply (truncatedAs_reads (pullTyped_reads hcount hhead htail hend) _).bind_last
    simp only [hof]
    exact Reads.pure _ filter
  · rw [if_neg htyped] at h ⊢
    rw [if_neg htyped]
    obtain ⟨inner, hinner, hsized⟩ := except_bind_eq_ok.mp h
    by_cases hopen : filter = absoluteStart 0 0
    · subst hopen
      have hlen : ([] : List Nat).length ≤ 4 := by decide
      apply (truncatedAs_reads (pullUntyped_reads hlen hinner hsized hend) _).bind_last
      exact Reads.pure _ none
    · rw [untyped_of_ne hopen]
      by_cases hnext : filter = nextObject
      · subst hnext
        have hlen : [0, 0].length ≤ 4 := by decide
        apply (truncatedAs_reads (pullUntyped_reads hlen hinner hsized hend) _).bind_last
        exact Reads.pure _ nextObject
      · have hsent : pushVints prof (fields.map (↑)) = .ok inner := by
          rw [← hfields, ← hinner]
          congr 1
          split
          · exact absurd rfl hnext
          · exact absurd rfl hopen
          · rfl
        have hlen : fields.length ≤ 4 := by
          have hlength := congrArg List.length hfields
          rw [List.length_map] at hlength
          rw [← hlength]
          cases filter <;> simp [toFields]
        have hzero : fields ≠ [0, 0] := by
          rintro rfl
          simp only [ofFields, Except.ok.injEq] at hof
          exact hopen hof.symm
        have hread := pullUntyped_reads hlen hsent hsized hend
        rw [if_neg hzero] at hread
        apply (truncatedAs_reads hread _).bind_last
        simp only [ofFields_length hof hnext]
        exact Reads.pure _ filter

/-- At most four fields fit behind a length. -/
theorem pushSizedVints_vi64 (hprof : prof.vi64 = true) {vs : List Nat} (hvs : ∀ v ∈ vs, v ≤ u64Max)
    (hlen : vs.length ≤ 4) :
    ∃ bs, (pushVints prof (vs.map (↑)) >>= fun inner => pushSized prof inner) = .ok bs := by
  obtain ⟨inner, hpush, hsize⟩ := pushVints_vi64 hprof hvs
  have hbody : inner.length ≤ u64Max := by
    have hmax : 36 ≤ u64Max := by decide
    omega
  obtain ⟨bs, hbs⟩ := pushSized_vi64 hprof hbody
  refine ⟨bs, ?_⟩
  rw [hpush]
  exact hbs

/-- A valid filter can be written. -/
theorem encode_ok (hprof : prof.vi64 = true) {filter : LocationFilter}
    (hvalid : filter.validate = .ok filter) : ∃ bs, filter.encode prof = .ok bs := by
  obtain ⟨fields, hfields, hcount, -⟩ := fields_of_valid hvalid
  have hfits := fields_le hvalid hfields
  have hlen : fields.length ≤ 4 := by
    have hlength := congrArg List.length hfields
    rw [List.length_map] at hlength
    rw [← hlength]
    cases filter <;> simp [toFields]
  unfold encode
  by_cases htyped : prof.locationFilterTyped = true
  · have htype : filter.toFields.1 ≤ u64Max := by cases filter <;> simp [toFields, u64Max]
    obtain ⟨head, hhead, -⟩ := pushVint_vi64 hprof htype
    obtain ⟨tail, htail, -⟩ := pushVints_vi64 hprof hfits
    refine ⟨head ++ tail, ?_⟩
    rw [if_pos htyped, hfields, hhead, htail]
    rfl
  · rw [if_neg htyped]
    split
    · have hzero : ∀ v ∈ [0, 0], v ≤ u64Max := by simp
      exact pushSizedVints_vi64 hprof hzero (by simp)
    · have hnone : ∀ v ∈ ([] : List Nat), v ≤ u64Max := by simp
      exact pushSizedVints_vi64 hprof hnone (by simp)
    · rw [hfields]
      exact pushSizedVints_vi64 hprof hfits hlen

end LocationFilter

/-! ## Range Filters -/

namespace RangeFilter

/-- Ranges in ascending order from `prev`, of which only the last may be open. -/
def Ascending : Nat → List (Nat × Option Nat) → Prop
  | _, [] => True
  | prev, (start, none) :: rest => prev ≤ start ∧ start ≤ u64Max ∧ rest = []
  | prev, (start, some stop) :: rest =>
      prev ≤ start ∧ start ≤ stop ∧ stop ≤ u64Max ∧ Ascending stop rest

/-- A filter a parameter of type `ptype` can carry. -/
structure Carried (ptype : Nat) (filter : RangeFilter) : Prop where
  setId : ∃ setId ≤ 255, filter.setId = some setId
  propertyType : filter.propertyType.isSome ↔ ptype ∈ propertyFilters
  propertyType_le : ∀ v ∈ filter.propertyType, v ≤ u64Max
  ascending : Ascending 0 filter.ranges

theorem pullRanges_nil (stop fuel prev : Nat) : Reads (pullRanges prof stop fuel prev) stop [] [] := by
  cases fuel with
  | zero => exact Reads.pure stop []
  | succ fuel =>
      unfold pullRanges
      apply Reads.tell_bind
      rw [if_neg (Nat.lt_irrefl stop)]
      exact Reads.pure stop []

/-- Ranges that were written are read back up to the position where they end. -/
theorem pullRanges_reads {ranges : List (Nat × Option Nat)} :
    ∀ {prev fuel : Nat} {bs : Bytes}, pushRanges prof prev ranges = .ok bs →
      ranges.length ≤ fuel → ∀ pos,
      Reads (pullRanges prof (pos + bs.length) fuel prev) pos bs ranges := by
  induction ranges with
  | nil =>
      intro prev fuel bs h _ pos
      cases h
      exact pullRanges_nil pos fuel prev
  | cons range rest ih =>
      obtain ⟨start, stop⟩ := range
      intro prev fuel bs h hfuel pos
      cases fuel with
      | zero => simp at hfuel
      | succ fuel =>
          unfold pushRanges at h
          split at h
          · cases h
          next hasc =>
          split at h
          · cases h
          next hlast =>
          have hprev : prev ≤ start := by
            by_contra hless
            exact hasc (Or.inl (Nat.lt_of_not_le hless))
          cases stop with
          | none =>
              obtain rfl : rest = [] := by
                by_contra hmore
                exact hlast ⟨rfl, hmore⟩
              obtain ⟨head, hhead, h⟩ := except_bind_eq_ok.mp h
              obtain ⟨tail, htail, h⟩ := except_bind_eq_ok.mp h
              cases h
              cases htail
              rw [← Int.ofNat_sub hprev] at hhead
              have hpos := length_pushVint_pos hhead
              rw [List.append_nil]
              unfold pullRanges
              apply Reads.tell_bind
              rw [if_pos (by omega)]
              apply (pullVint_reads_of hhead pos).bind_last
              apply Reads.tell_bind
              rw [if_neg (Nat.lt_irrefl _), Nat.add_sub_cancel' hprev]
              exact (pullRanges_nil _ _ _).map _
          | some stop =>
              have hstart : start ≤ stop := by
                by_contra hless
                exact hasc (Or.inr (by simpa using hless))
              obtain ⟨head, hhead, h⟩ := except_bind_eq_ok.mp h
              obtain ⟨len, hlen, h⟩ := except_bind_eq_ok.mp h
              obtain ⟨tail, htail, h⟩ := except_bind_eq_ok.mp h
              cases h
              rw [← Int.ofNat_sub hprev] at hhead
              rw [← Int.ofNat_sub hstart] at hlen
              have hpos := length_pushVint_pos hhead
              have hpos' := length_pushVint_pos hlen
              have hsum : pos + (head ++ len ++ tail).length =
                  pos + head.length + len.length + tail.length := by
                simp only [List.length_append]
                omega
              rw [hsum, List.append_assoc]
              unfold pullRanges
              apply Reads.tell_bind
              rw [if_pos (by omega)]
              apply (pullVint_reads_of hhead pos).bind
              apply Reads.tell_bind
              rw [if_pos (by omega), Nat.add_sub_cancel' hprev]
              apply (pullVint_reads_of hlen _).bind
              rw [Nat.add_sub_cancel' hstart]
              exact (ih htail (by simpa using hfuel) _).map _

/-- Ascending ranges can be written, in eighteen bytes each. -/
theorem pushRanges_vi64 (hprof : prof.vi64 = true) {ranges : List (Nat × Option Nat)} :
    ∀ {prev : Nat}, Ascending prev ranges →
      ∃ bs, pushRanges prof prev ranges = .ok bs ∧ ranges.length ≤ bs.length ∧
        bs.length ≤ 18 * ranges.length := by
  induction ranges with
  | nil =>
      intro prev _
      exact ⟨[], rfl, by simp, by simp⟩
  | cons range rest ih =>
      obtain ⟨start, stop⟩ := range
      intro prev hasc
      unfold pushRanges
      cases stop with
      | none =>
          obtain ⟨hprev, hmax, rfl⟩ := hasc
          have hfit : start - prev ≤ u64Max := by omega
          obtain ⟨head, hhead, hlen⟩ := pushVint_vi64 hprof hfit
          have hpos := length_pushVint_pos hhead
          rw [Int.ofNat_sub hprev] at hhead
          refine ⟨head, ?_, ?_, ?_⟩
          · rw [if_neg (by simp [hprev]), if_neg (by simp), hhead]
            simp [pushRanges, Bind.bind, Except.bind, Pure.pure, Except.pure]
          · simp only [List.length_singleton]
            omega
          · simp only [List.length_singleton]
            omega
      | some stop =>
          obtain ⟨hprev, hstart, hmax, hrest⟩ := hasc
          have hfit : start - prev ≤ u64Max := by omega
          have hfit' : stop - start ≤ u64Max := by omega
          obtain ⟨head, hhead, hlen⟩ := pushVint_vi64 hprof hfit
          obtain ⟨mid, hmid, hlen'⟩ := pushVint_vi64 hprof hfit'
          obtain ⟨tail, htail, hcount, hsize⟩ := ih hrest
          have hpos := length_pushVint_pos hhead
          rw [Int.ofNat_sub hprev] at hhead
          rw [Int.ofNat_sub hstart] at hmid
          refine ⟨head ++ mid ++ tail, ?_, ?_, ?_⟩
          · rw [if_neg (by simp [hprev, hstart]), if_neg (by simp), hhead]
            simp [hmid, htail, Bind.bind, Except.bind, Pure.pure, Except.pure]
          · simp only [List.length_append, List.length_cons]
            omega
          · simp only [List.length_append, List.length_cons]
            omega

theorem length_le_of_pushRanges {ranges : List (Nat × Option Nat)} :
    ∀ {prev : Nat} {bs : Bytes}, pushRanges prof prev ranges = .ok bs →
      ranges.length ≤ bs.length := by
  induction ranges with
  | nil =>
      intro prev bs h
      cases h
      simp
  | cons range rest ih =>
      obtain ⟨start, stop⟩ := range
      intro prev bs h
      unfold pushRanges at h
      split at h
      · cases h
      split at h
      · cases h
      obtain ⟨head, hhead, h⟩ := except_bind_eq_ok.mp h
      have hpos := length_pushVint_pos hhead
      cases stop with
      | none =>
          obtain ⟨tail, htail, h⟩ := except_bind_eq_ok.mp h
          cases h
          have hle := ih htail
          simp only [List.length_append, List.length_cons]
          omega
      | some stop =>
          obtain ⟨mid, hmid, h⟩ := except_bind_eq_ok.mp h
          obtain ⟨tail, htail, h⟩ := except_bind_eq_ok.mp h
          cases h
          have hle := ih htail
          simp only [List.length_append, List.length_cons]
          omega

theorem pullPropertyType_reads {ptype : Nat} {propertyType : Option Nat} {bs : Bytes}
    (h : pushPropertyType prof ptype propertyType = .ok bs) (pos : Nat) :
    Reads (pullPropertyType prof ptype) pos bs propertyType := by
  unfold pushPropertyType at h
  unfold pullPropertyType
  by_cases hmem : ptype ∈ propertyFilters
  · rw [if_pos hmem] at h ⊢
    cases propertyType with
    | none => cases h
    | some v => exact (pullVint_reads_of h pos).map _
  · rw [if_neg hmem] at h ⊢
    cases propertyType with
    | none =>
        cases h
        exact Reads.pure pos none
    | some v => cases h

/-- What comes back of a filter: without a SetID nothing else is written. -/
def received (filter : RangeFilter) : RangeFilter :=
  if filter.setId.isSome then filter else { setId := none }

theorem decode_reads_removal {filter : RangeFilter} (hset : filter.setId = none) {ptype : Nat}
    {bs : Bytes} (h : filter.encode prof ptype = .ok bs) {bufEnd pos : Nat}
    (hend : pos + bs.length ≤ bufEnd) :
    Reads (decode prof ptype bufEnd) pos bs { setId := none } := by
  unfold encode at h
  simp only [hset] at h
  obtain ⟨len, hsize, h⟩ := except_bind_eq_ok.mp h
  cases h
  rw [List.length_append, List.length_nil] at hend
  unfold decode
  apply truncatedAs_reads
  apply (pullVint_reads_of hsize pos).bind
  apply Reads.tell_bind
  apply Reads.guard
  · simp only [List.length_nil]
    omega
  · rw [if_pos List.length_nil]
    exact Reads.pure _ _

/-- The decoder takes exactly what the encoder wrote of a filter with a SetID. -/
theorem decode_reads_set {filter : RangeFilter} {setId : Nat} (hset : filter.setId = some setId)
    {ptype : Nat} {bs : Bytes} (h : filter.encode prof ptype = .ok bs) {bufEnd pos : Nat}
    (hend : pos + bs.length ≤ bufEnd) : Reads (decode prof ptype bufEnd) pos bs filter := by
  unfold encode at h
  simp only [hset] at h
  split at h
  · cases h
  obtain ⟨head, hhead, h⟩ := except_bind_eq_ok.mp h
  obtain ⟨property, hprop, h⟩ := except_bind_eq_ok.mp h
  obtain ⟨ranges, hranges, h⟩ := except_bind_eq_ok.mp h
  obtain ⟨len, hsize, h⟩ := except_bind_eq_ok.mp h
  cases h
  have hone : head.length = 1 := by
    unfold pushUint8 at hhead
    split at hhead
    · cases hhead
      rfl
    · cases hhead
  have hcount := length_le_of_pushRanges hranges
  have hbody : (head ++ property ++ ranges).length = 1 + property.length + ranges.length := by
    rw [List.length_append, List.length_append, hone]
  rw [List.length_append, hbody] at hend
  rw [hbody] at hsize
  unfold decode
  apply truncatedAs_reads
  apply (pullVint_reads_of hsize pos).bind
  apply Reads.tell_bind
  apply Reads.guard (by omega)
  rw [if_neg (by omega), List.append_assoc]
  apply (pullUint8_reads_of hhead _).bind
  apply (pullPropertyType_reads hprop _).bind
  have hstop : pos + len.length + (1 + property.length + ranges.length) =
      pos + len.length + head.length + property.length + ranges.length := by omega
  rw [hstop]
  have hfuel : filter.ranges.length ≤ 1 + property.length + ranges.length := by omega
  apply (pullRanges_reads hranges hfuel _).bind_last
  apply Reads.tell_bind
  apply Reads.guard (by simp)
  rw [← hset]
  exact Reads.pure _ filter

/-- A filter its type can carry is written, unless its ranges outgrow every length. -/
theorem encode_ok (hprof : prof.vi64 = true) {filter : RangeFilter} {ptype : Nat}
    (hcarried : filter.Carried ptype) (hsize : 18 * filter.ranges.length + 10 ≤ u64Max) :
    ∃ bs, filter.encode prof ptype = .ok bs := by
  obtain ⟨⟨setId, hle, hset⟩, hproperty, hmax, hasc⟩ := hcarried
  obtain ⟨ranges, hranges, -, hlen⟩ := pushRanges_vi64 hprof hasc
  have hprop : ∃ property, pushPropertyType prof ptype filter.propertyType = .ok property ∧
      property.length ≤ 9 := by
    unfold pushPropertyType
    cases hvalue : filter.propertyType with
    | none =>
        rw [hvalue] at hproperty
        have hnot : ptype ∉ propertyFilters := by simpa using hproperty
        exact ⟨[], by rw [if_neg hnot], by simp⟩
    | some v =>
        rw [hvalue] at hproperty
        have hmem : ptype ∈ propertyFilters := by simpa using hproperty
        obtain ⟨bs, hbs, hnine⟩ := pushVint_vi64 hprof (hmax v hvalue)
        exact ⟨bs, by rw [if_pos hmem]; exact hbs, hnine⟩
  obtain ⟨property, hprop, hnine⟩ := hprop
  have hbody : ([UInt8.ofNat setId] ++ property ++ ranges).length ≤ u64Max := by
    simp only [List.length_append, List.length_singleton]
    omega
  obtain ⟨bs, hbs⟩ := pushSized_vi64 hprof hbody
  have hhead : pushUint8 (setId : Int) = .ok [UInt8.ofNat setId] := by
    unfold pushUint8
    rw [if_pos (by omega), Int.toNat_natCast]
  refine ⟨bs, ?_⟩
  unfold encode
  simp only [hset]
  rw [if_neg (by omega), hhead, hprop, hranges]
  exact hbs

/-- What was written of a filter is read back: the filter itself, and without a SetID only
that. -/
theorem decode_reads {filter : RangeFilter} {ptype : Nat} {bs : Bytes}
    (h : filter.encode prof ptype = .ok bs) {bufEnd pos : Nat} (hend : pos + bs.length ≤ bufEnd) :
    Reads (decode prof ptype bufEnd) pos bs filter.received := by
  unfold received
  cases hset : filter.setId with
  | none => exact decode_reads_removal hset h hend
  | some setId => exact decode_reads_set hset h hend

end RangeFilter

end

/-! ## The ranges of a FETCH -/

/-- A range of a FETCH up to draft 18: it starts at a Location, and ends, if it does, in
a group that is not before it, with the object past the last one or 0. -/
inductive FetchRange.Proper : FetchRange → Prop
  | bounded {startGroup startObject endGroup endObject : Nat} (hgroup : startGroup ≤ endGroup)
      (hobject : startObject ≤ u64Max) (hend : endGroup ≤ u64Max)
      (hlast : endObject ≤ u64Max + 1) :
      Proper ⟨some startGroup, some startObject, some endGroup, some endObject⟩
  | unbounded {startGroup startObject : Nat} (hgroup : startGroup ≤ u64Max)
      (hobject : startObject ≤ u64Max) :
      Proper ⟨some startGroup, some startObject, none, none⟩

namespace LocationFilter

/-- The range of the filter of a range is that range. -/
theorem fetchRange_fromFetchRange {range : FetchRange} (h : range.Proper) :
    ∃ filter : LocationFilter, fromFetchRange range = .ok filter ∧
      filter.validate = .ok filter ∧ filter.fetchRange = some range := by
  cases h with
  | unbounded hgroup hobject =>
      refine ⟨absoluteStart _ _, ?_, ?_, rfl⟩
      · simp [fromFetchRange, absolute, validate, hgroup, hobject]
      · simp [validate, hgroup, hobject]
  | @bounded startGroup startObject endGroup endObject hgroup hobject hend hlast =>
      have hstart : startGroup ≤ u64Max := le_trans hgroup hend
      cases endObject with
      | zero =>
          refine ⟨absoluteGroupEnd startGroup startObject endGroup, ?_, ?_, rfl⟩
          · simp [fromFetchRange, absolute, validate, hgroup, hobject, hend, hstart]
          · simp [validate, hgroup, hobject, hend, hstart]
      | succ endObject =>
          have hobject' : endObject ≤ u64Max := by omega
          refine ⟨absoluteRange startGroup startObject endGroup endObject, ?_, ?_, rfl⟩
          · simp [fromFetchRange, absolute, validate, hgroup, hobject, hobject', hend, hstart]
          · simp [validate, hgroup, hobject, hobject', hend, hstart]

/-- The filter of the range of a filter is that filter; the unfiltered form has the range
of the open filter from the start. -/
theorem fromFetchRange_fetchRange {filter : LocationFilter} (hvalid : filter.validate = .ok filter)
    {range : FetchRange} (h : filter.fetchRange = some range) :
    fromFetchRange range = .ok (if filter = none then absoluteStart 0 0 else filter) := by
  cases filter with
  | none =>
      cases h
      rfl
  | nextObject => cases h
  | relativeStart groups => cases h
  | absoluteStart group object =>
      cases h
      exact hvalid
  | absoluteGroupEnd group object stop =>
      cases h
      exact hvalid
  | absoluteRange group object stop endObject =>
      cases h
      exact hvalid

end LocationFilter

/-! ## Both filters -/

/-- Draft 22 reads back every Location Filter, and draft 20 one that asks for the same;
the ranges of a FETCH and their filters name each other; a Range Filter that is written
is read back, but for what stands beside a missing SetID. -/
theorem filters_survive_wire :
    (∀ filter : LocationFilter, filter.validate = .ok filter →
      ∃ bs, filter.encode (profileFor .d22) = .ok bs ∧ ∀ pos bufEnd, pos + bs.length ≤ bufEnd →
        Reads (LocationFilter.decode (profileFor .d22) bufEnd) pos bs filter) ∧
    (∀ filter : LocationFilter, filter.validate = .ok filter →
      ∃ bs back, filter.encode (profileFor .d20) = .ok bs ∧
        (∀ pos bufEnd, pos + bs.length ≤ bufEnd →
          Reads (LocationFilter.decode (profileFor .d20) bufEnd) pos bs back) ∧
        ∀ largest fetch, back.resolve largest fetch = filter.resolve largest fetch) ∧
    (∀ range : FetchRange, range.Proper →
      ∃ filter, LocationFilter.fromFetchRange range = .ok filter ∧
        filter.fetchRange = some range) ∧
    (∀ (filter : LocationFilter) (range : FetchRange), filter.validate = .ok filter →
      filter ≠ .none → filter.fetchRange = some range →
        LocationFilter.fromFetchRange range = .ok filter) ∧
    (∀ draft ∈ [Draft.d20, Draft.d22], ∀ ptype ∈ rangeFilters, ∀ filter : RangeFilter,
      (filter.setId = none ∨ filter.Carried ptype ∧ 18 * filter.ranges.length + 10 ≤ u64Max →
        ∃ bs, filter.encode (profileFor draft) ptype = .ok bs) ∧
      ∀ bs, filter.encode (profileFor draft) ptype = .ok bs →
        ∀ pos bufEnd, pos + bs.length ≤ bufEnd →
          Reads (RangeFilter.decode (profileFor draft) ptype bufEnd) pos bs
            (if filter.setId.isSome then filter else { setId := none })) := by
  refine ⟨?_, ?_, ?_, ?_, ?_⟩
  · intro filter hvalid
    obtain ⟨bs, hbs⟩ := LocationFilter.encode_ok (show (profileFor .d22).vi64 = true from rfl) hvalid
    exact ⟨bs, hbs, fun pos bufEnd hend => LocationFilter.decode_reads hvalid hbs hend⟩
  · intro filter hvalid
    obtain ⟨bs, hbs⟩ := LocationFilter.encode_ok (show (profileFor .d20).vi64 = true from rfl) hvalid
    refine ⟨bs, filter.untyped, hbs, ?_, filter.resolve_untyped⟩
    intro pos bufEnd hend
    exact LocationFilter.decode_reads hvalid hbs hend
  · intro range hproper
    obtain ⟨filter, hfrom, -, hrange⟩ := LocationFilter.fetchRange_fromFetchRange hproper
    exact ⟨filter, hfrom, hrange⟩
  · intro filter range hvalid hnone hrange
    rw [LocationFilter.fromFetchRange_fetchRange hvalid hrange, if_neg hnone]
  · intro draft hdraft ptype _ filter
    have hprof : (profileFor draft).vi64 = true := by
      simp only [List.mem_cons, List.not_mem_nil, or_false] at hdraft
      rcases hdraft with rfl | rfl <;> rfl
    constructor
    · rintro (hset | ⟨hcarried, hsize⟩)
      · obtain ⟨bs, hbs⟩ := pushSized_vi64 hprof (show ([] : Bytes).length ≤ u64Max by simp)
        refine ⟨bs, ?_⟩
        unfold RangeFilter.encode
        simp only [hset]
        exact hbs
      · exact RangeFilter.encode_ok hprof hcarried hsize
    · intro bs hbs pos bufEnd hend
      exact RangeFilter.decode_reads hbs hend

/-- A range of groups in both drafts and as the range of a FETCH, and an Object Property filter whose
last range is open. -/
theorem filters_survive_wire_ranges :
    (∃ bs, (LocationFilter.absoluteRange 5 2 7 0).encode (profileFor .d22) = .ok bs ∧
      Reads (LocationFilter.decode (profileFor .d22) bs.length) 0 bs (.absoluteRange 5 2 7 0)) ∧
    (∃ bs back, (LocationFilter.relativeStart 0).encode (profileFor .d20) = .ok bs ∧
      Reads (LocationFilter.decode (profileFor .d20) bs.length) 0 bs back ∧
      back.resolve (some (3, 1)) false = (LocationFilter.relativeStart 0).resolve (some (3, 1)) false) ∧
    (∃ filter, LocationFilter.fromFetchRange ⟨some 5, some 2, some 7, some 0⟩ = .ok filter ∧
      filter.fetchRange = some ⟨some 5, some 2, some 7, some 0⟩) ∧
    LocationFilter.fromFetchRange ⟨some 5, some 2, some 7, some 1⟩ = .ok (.absoluteRange 5 2 7 0) ∧
    ∃ bs, RangeFilter.encode (profileFor .d22)
        ⟨some 3, [(0, some 1), (5, none)], some 4⟩ 0x28 = .ok bs ∧
      Reads (RangeFilter.decode (profileFor .d22) 0x28 bs.length) 0 bs
        ⟨some 3, [(0, some 1), (5, none)], some 4⟩ := by
  obtain ⟨hd22, hd20, hfetch, hback, hranges⟩ := filters_survive_wire
  refine ⟨?_, ?_, ?_, ?_, ?_⟩
  · obtain ⟨bs, hbs, hreads⟩ := hd22 (.absoluteRange 5 2 7 0) (by decide)
    exact ⟨bs, hbs, hreads 0 bs.length (by omega)⟩
  · obtain ⟨bs, back, hbs, hreads, hsame⟩ := hd20 (.relativeStart 0) (by decide)
    exact ⟨bs, back, hbs, hreads 0 bs.length (by omega), hsame _ _⟩
  · exact hfetch _ (.bounded (by omega) (by decide) (by decide) (by decide))
  · exact hback (.absoluteRange 5 2 7 0) _ (by decide) (by decide) rfl
  · have hcarried : RangeFilter.Carried 0x28 ⟨some 3, [(0, some 1), (5, none)], some 4⟩ := by
      refine ⟨⟨3, by omega, rfl⟩, by decide, ?_, ?_⟩
      · rintro v ⟨⟩
        decide
      · simp [RangeFilter.Ascending, u64Max]
    obtain ⟨hwritten, hread⟩ := hranges .d22 (by decide) 0x28 (by decide)
      ⟨some 3, [(0, some 1), (5, none)], some 4⟩
    obtain ⟨bs, hbs⟩ := hwritten (Or.inr ⟨hcarried, by decide⟩)
    exact ⟨bs, hbs, hread bs hbs 0 bs.length (by omega)⟩

/-- The zero-length form goes out for a filter that has ranges but no SetID. -/
theorem ranges_lost_without_setId :
    RangeFilter.Ascending 0 [(0, some 1)] ∧
      RangeFilter.encode (profileFor .d22) { setId := none, ranges := [(0, some 1)] } 0x25 =
        .ok [0x00] ∧
      within (RangeFilter.decode (profileFor .d22) 0x25 1) [0x00] ≠
        .ok { setId := none, ranges := [(0, some 1)] } := by
  refine ⟨by simp [RangeFilter.Ascending, u64Max], by decide, by decide⟩

end AioMoqt.Messages
