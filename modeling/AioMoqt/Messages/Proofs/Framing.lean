import AioMoqt.Lib.Frame
import AioMoqt.Messages.Control

/-!
# No decoder looks past its message

Every body decoder is framed by the end of its message: bytes behind it cannot change
what the decoder returns, where it stops, or the code the session closes with.
-/

namespace AioMoqt.Messages

open AioMoqt.Lib AioMoqt.Lib.BigEndian AioMoqt.Lib.Reader

/-! ## Failures -/

/-- The failures a parameter block does not tell apart. -/
def MoqtError.Violation (e : MoqtError) : Prop := e.isViolation = true

/-- The failures that close the session as a protocol violation. -/
def MoqtError.Fatal (e : MoqtError) : Prop := e.closeCode = .protocolViolation

theorem MoqtError.Violation.fatal (e : MoqtError) (h : e.Violation) : e.Fatal := by
  cases e <;> simp_all [Violation, isViolation, Fatal, closeCode]

instance Fails.violation {α : Type} (reason : String) :
    Fails MoqtError.Violation (.error (.violation reason) : Except MoqtError α) :=
  ⟨fun e he => by cases he; rfl⟩

instance Fails.malformedKvp {α : Type} (reason : String) :
    Fails MoqtError.Violation (.error (.malformedKvp reason) : Except MoqtError α) :=
  ⟨fun e he => by cases he; rfl⟩

instance Fails.underflow {α : Type} (pos : Nat) :
    Fails MoqtError.Violation (.error (.underflow pos) : Except MoqtError α) :=
  ⟨fun e he => by cases he; rfl⟩

instance (priority := low) Fails.fatal {α : Type} {x : Except MoqtError α}
    [hx : Fails MoqtError.Violation x] : Fails MoqtError.Fatal x :=
  ⟨fun e he => (hx.fails e he).fatal⟩

instance (priority := low) Framed.fatal {α : Type} {stop : Nat} {r : Reader MoqtError α}
    [hr : Framed MoqtError.Violation stop r] : Framed MoqtError.Fatal stop r :=
  hr.mono MoqtError.Violation.fatal

theorem underflow_violation (pos : Nat) : (MoqtError.underflow pos).Violation := rfl

theorem violation_violation (reason : String) : (MoqtError.violation reason).Violation := rfl

/-! ## Integers, bytes and names -/

theorem rfc9000_local : Buffer.rfc9000.Local := PrefixCode.ofClasses_local _ _ _ _ _

section

variable {stop : Nat} (prof : DraftProfile)

instance pullVint_framed : Framed MoqtError.Violation stop (pullVint prof.vint) :=
  Framed.int prof.vint_local underflow_violation

instance pullVint_rfc9000_framed :
    Framed MoqtError.Violation stop (pullVint Buffer.rfc9000) :=
  Framed.int rfc9000_local underflow_violation

instance pullUint8_framed : Framed MoqtError.Violation stop pullUint8 := by
  have hbyte : Framed MoqtError.Violation stop (Reader.byte MoqtError.underflow) :=
    Framed.byte underflow_violation
  unfold pullUint8
  infer_instance

instance pullBytes_framed (n : Nat) : Framed MoqtError.Violation stop (pullBytes n) :=
  Framed.bytes underflow_violation

/-- The length check before the read only names the failure. -/
instance pullSized_framed (n : Nat) (what : String) :
    Framed MoqtError.Violation stop (pullSized n what) where
  framedAt pos := by
    have hlost : stop < pos + n → ∀ rest,
        Lost MoqtError.Violation stop (pullSized n what ⟨pos, rest⟩) := by
      intro hpast rest
      unfold pullSized
      split
      · rfl
      · next hle =>
          show Lost MoqtError.Violation stop (if n ≤ rest.length then _ else _)
          rw [if_pos (Nat.le_of_not_lt hle)]
          exact hpast
    constructor
    · intro body rest rest' hstop
      by_cases hn : n ≤ body.length
      · have hbytes := ((pullBytes_framed n).framedAt pos).inside body rest rest' hstop
        unfold pullSized
        rw [if_neg (by rw [List.length_append]; omega), if_neg (by rw [List.length_append]; omega)]
        exact hbytes
      · exact .lost (hlost (by omega) _) (hlost (by omega) _)
    · intro hpos rest
      exact hlost (by omega) rest

instance pullTupleFields_framed (bufEnd : Option Nat) (n : Nat) :
    Framed MoqtError.Violation stop (pullTupleFields prof bufEnd n) := by
  induction n with
  | zero => exact Framed.pure []
  | succ n ih =>
      unfold pullTupleFields
      infer_instance

instance pullTuple_framed (bufEnd : Option Nat) :
    Framed MoqtError.Violation stop (pullTuple prof bufEnd) := by
  unfold pullTuple
  infer_instance

instance pullFullTrackName_framed :
    Framed MoqtError.Violation stop (pullFullTrackName prof) := by
  unfold pullFullTrackName
  infer_instance

instance pullReason_framed : Framed MoqtError.Violation stop (pullReason prof) := by
  unfold pullReason
  infer_instance

/-! ## Filters -/

instance truncatedAs_framed {α : Type} (reason : String) (r : Reader MoqtError α)
    [hr : Framed MoqtError.Violation stop r] :
    Framed MoqtError.Violation stop (truncatedAs reason r) where
  framedAt pos := by
    have hlost : ∀ cur, Lost MoqtError.Violation stop (r cur) →
        Lost MoqtError.Violation stop (truncatedAs reason r cur) := by
      intro cur hcur
      unfold truncatedAs
      split
      · rfl
      · exact hcur
    constructor
    · intro body rest rest' hstop
      have hagree := (hr.framedAt pos).inside body rest rest' hstop
      generalize hx : r ⟨pos, body ++ rest⟩ = x at hagree
      generalize hy : r ⟨pos, body ++ rest'⟩ = y at hagree
      cases hagree with
      | inside a next mid hnext =>
          simp only [truncatedAs, hx, hy]
          exact .inside a next mid hnext
      | failed e =>
          simp only [truncatedAs, hx, hy]
          cases e <;> exact .failed _
      | lost hxl hyl => exact .lost (hlost _ (hx ▸ hxl)) (hlost _ (hy ▸ hyl))
    · intro hpos rest
      exact hlost _ ((hr.framedAt pos).past hpos rest)

instance pullVints_framed (n : Nat) : Framed MoqtError.Violation stop (pullVints prof n) := by
  induction n with
  | zero => exact Framed.pure []
  | succ n ih =>
      unfold pullVints
      infer_instance

instance pullVintsTo_framed (valueEnd n : Nat) :
    Framed MoqtError.Violation stop (pullVintsTo prof valueEnd n) := by
  induction n with
  | zero =>
      unfold pullVintsTo
      infer_instance
  | succ n ih =>
      unfold pullVintsTo
      infer_instance

instance LocationFilter.pullTyped_framed (bufEnd : Nat) :
    Framed MoqtError.Violation stop (LocationFilter.pullTyped prof bufEnd) := by
  unfold LocationFilter.pullTyped
  apply Framed.seq inferInstance
  intro raw
  dsimp only
  split <;> infer_instance

instance LocationFilter.pullUntyped_framed (bufEnd : Nat) :
    Framed MoqtError.Violation stop (LocationFilter.pullUntyped prof bufEnd) := by
  unfold LocationFilter.pullUntyped
  infer_instance

theorem LocationFilter.ofFields_fails (type : Nat) (fields : List Nat) :
    Fails MoqtError.Violation (LocationFilter.ofFields type fields) := by
  unfold LocationFilter.ofFields
  split
  · infer_instance
  · infer_instance
  · infer_instance
  · dsimp only
    split
    · infer_instance
    · split <;> infer_instance

instance LocationFilter.decode_framed (bufEnd : Nat) :
    Framed MoqtError.Violation stop (LocationFilter.decode prof bufEnd) := by
  unfold LocationFilter.decode
  apply Framed.seq inferInstance
  intro raw
  split
  · infer_instance
  · next e he => exact Framed.fail_of_lost ((LocationFilter.ofFields_fails _ _).fails e he)

instance RangeFilter.pullRanges_framed (valueEnd fuel prev : Nat) :
    Framed MoqtError.Violation stop (RangeFilter.pullRanges prof valueEnd fuel prev) := by
  induction fuel generalizing prev with
  | zero => exact Framed.pure []
  | succ fuel ih =>
      unfold RangeFilter.pullRanges
      infer_instance

instance RangeFilter.pullPropertyType_framed (ptype : Nat) :
    Framed MoqtError.Violation stop (RangeFilter.pullPropertyType prof ptype) := by
  unfold RangeFilter.pullPropertyType
  infer_instance

instance RangeFilter.decode_framed (ptype bufEnd : Nat) :
    Framed MoqtError.Violation stop (RangeFilter.decode prof ptype bufEnd) := by
  unfold RangeFilter.decode
  infer_instance

/-! ## Locations

The two readings of a Location are compared by whether the rest of the message still
parses, so this is where a decoder could most easily look too far. -/

instance pullLocation_framed : Framed MoqtError.Violation stop (pullLocation prof) := by
  unfold pullLocation
  infer_instance

instance skipSized_framed (bufEnd : Nat) :
    Framed MoqtError.Violation stop (skipSized prof bufEnd) := by
  unfold skipSized
  infer_instance

instance skipParamValue_framed (bufEnd ptype : Nat) :
    Framed MoqtError.Violation stop (skipParamValue prof bufEnd ptype) := by
  unfold skipParamValue
  infer_instance

instance skipParams_framed (bufEnd n prevKey : Nat) :
    Framed MoqtError.Violation stop (skipParams prof bufEnd n prevKey) := by
  induction n generalizing prevKey with
  | zero => exact Framed.pure ()
  | succ n ih =>
      unfold skipParams
      infer_instance

instance skipKvpValue_framed (bufEnd key : Nat) :
    Framed MoqtError.Violation stop (skipKvpValue prof bufEnd key) := by
  unfold skipKvpValue
  infer_instance

instance skipKvps_framed (bufEnd fuel prevKey : Nat) :
    Framed MoqtError.Violation stop (skipKvps prof bufEnd fuel prevKey) := by
  induction fuel generalizing prevKey with
  | zero => exact Framed.pure ()
  | succ fuel ih =>
      unfold skipKvps
      infer_instance

theorem suffixParses_lost {remaining prevKey : Nat} {cur : Cursor}
    (h : Lost MoqtError.Violation stop (skipParams prof stop remaining prevKey cur)) :
    suffixParses prof stop remaining prevKey cur = false := by
  unfold suffixParses
  split
  · rfl
  · next next hnext =>
      rw [hnext] at h
      have hkvps := ((skipKvps_framed prof stop (stop - next.pos) 0).framedAt next.pos).past h
        next.rest
      split
      · rfl
      · next last hlast =>
          rw [hlast] at hkvps
          have hne : last.pos ≠ stop := Nat.ne_of_gt hkvps
          simpa using hne

/-- What leaves the frame does not end where the frame ends. -/
theorem endsAt_lost {x : Except MoqtError (Unit × Cursor)} : Lost MoqtError.Violation stop x →
    (match x with
      | .error _ => false
      | .ok (_, last) => decide (last.pos = stop)) = false := by
  intro h
  cases x with
  | error e => rfl
  | ok result => simpa using Nat.ne_of_gt h

theorem suffixParses_eq {remaining prevKey pos : Nat} {body : Bytes}
    (hstop : pos + body.length = stop) (rest rest' : Bytes) :
    suffixParses prof stop remaining prevKey ⟨pos, body ++ rest⟩ =
      suffixParses prof stop remaining prevKey ⟨pos, body ++ rest'⟩ := by
  have hparams := ((skipParams_framed prof stop remaining prevKey).framedAt pos).inside body rest
    rest' hstop
  generalize hx : skipParams prof stop remaining prevKey ⟨pos, body ++ rest⟩ = x at hparams
  generalize hy : skipParams prof stop remaining prevKey ⟨pos, body ++ rest'⟩ = y at hparams
  cases hparams with
  | inside a next mid hnext =>
      have hkvps := ((skipKvps_framed prof stop (stop - next) 0).framedAt next).inside mid rest
        rest' hnext
      simp only [suffixParses, hx, hy]
      generalize skipKvps prof stop (stop - next) 0 ⟨next, mid ++ rest⟩ = x' at hkvps
      generalize skipKvps prof stop (stop - next) 0 ⟨next, mid ++ rest'⟩ = y' at hkvps
      cases hkvps with
      | inside a last mid hlast => rfl
      | failed e => rfl
      | lost hxl hyl =>
          exact (endsAt_lost hxl).trans (endsAt_lost hyl).symm
  | failed e => simp only [suffixParses, hx, hy]
  | lost hxl hyl => rw [suffixParses_lost prof (hx ▸ hxl), suffixParses_lost prof (hy ▸ hyl)]

/-- Two optional results over the same frame. -/
def Settled {α : Type} (stop : Nat) (rest rest' : Bytes) (x y : Option (α × Cursor)) : Prop :=
  (x = none ∧ y = none) ∨ ∃ a pos body, pos + body.length = stop ∧
    x = some (a, ⟨pos, body ++ rest⟩) ∧ y = some (a, ⟨pos, body ++ rest'⟩)

theorem inlineLocation_lost {cur : Cursor}
    (h : Lost MoqtError.Violation stop (pullLocation prof cur)) :
    inlineLocation prof stop cur = none := by
  unfold inlineLocation
  split
  · next loc next hnext =>
      rw [hnext] at h
      exact if_neg (Nat.not_le_of_gt h)
  · rfl

theorem inlineLocation_settled {pos : Nat} {body : Bytes} (hstop : pos + body.length = stop)
    (rest rest' : Bytes) : Settled stop rest rest' (inlineLocation prof stop ⟨pos, body ++ rest⟩)
      (inlineLocation prof stop ⟨pos, body ++ rest'⟩) := by
  have hloc := ((pullLocation_framed prof).framedAt pos).inside body rest rest' hstop
  generalize hx : pullLocation prof ⟨pos, body ++ rest⟩ = x at hloc
  generalize hy : pullLocation prof ⟨pos, body ++ rest'⟩ = y at hloc
  cases hloc with
  | inside loc next mid hnext =>
      right
      have hle : next ≤ stop := by omega
      exact ⟨loc, next, mid, hnext, by simp [inlineLocation, hx, hle],
        by simp [inlineLocation, hy, hle]⟩
  | failed e => exact .inl ⟨by simp [inlineLocation, hx], by simp [inlineLocation, hy]⟩
  | lost hxl hyl =>
      exact .inl ⟨inlineLocation_lost prof (hx ▸ hxl), inlineLocation_lost prof (hy ▸ hyl)⟩

theorem prefixedLocation_lost {cur : Cursor}
    (h : Lost MoqtError.Violation stop (pullVint prof.vint cur)) :
    prefixedLocation prof stop cur = none := by
  unfold prefixedLocation
  split
  · rfl
  · next len start hstart =>
      rw [hstart] at h
      have hpast : stop < start.pos := h
      exact if_pos (.inr (by omega))

/-- A Location that leaves the frame does not fill a length inside it. -/
theorem fills_lost {last : Nat} (hlast : last ≤ stop)
    {x : Except MoqtError ((Nat × Nat) × Cursor)} : Lost MoqtError.Violation stop x →
    (match x with
      | .ok (loc, next) => if next.pos = last then some (loc, next) else none
      | .error _ => none) = none := by
  intro h
  cases x with
  | error e => rfl
  | ok result =>
      have hpast : stop < result.2.pos := h
      exact if_neg (by omega)

theorem prefixedLocation_settled {pos : Nat} {body : Bytes} (hstop : pos + body.length = stop)
    (rest rest' : Bytes) :
    Settled stop rest rest' (prefixedLocation prof stop ⟨pos, body ++ rest⟩)
      (prefixedLocation prof stop ⟨pos, body ++ rest'⟩) := by
  have hlen := ((pullVint_framed prof).framedAt pos).inside body rest rest' hstop
  generalize hx : pullVint prof.vint ⟨pos, body ++ rest⟩ = x at hlen
  generalize hy : pullVint prof.vint ⟨pos, body ++ rest'⟩ = y at hlen
  cases hlen with
  | failed e => exact .inl ⟨by simp [prefixedLocation, hx], by simp [prefixedLocation, hy]⟩
  | lost hxl hyl =>
      exact .inl ⟨prefixedLocation_lost prof (hx ▸ hxl), prefixedLocation_lost prof (hy ▸ hyl)⟩
  | inside len start mid hstart =>
      by_cases hout : len = 0 ∨ stop < start + len
      · exact .inl ⟨by simp [prefixedLocation, hx, hout], by simp [prefixedLocation, hy, hout]⟩
      simp only [prefixedLocation, hx, hy, if_neg hout]
      have hloc := ((pullLocation_framed prof).framedAt start).inside mid rest rest' hstart
      generalize pullLocation prof ⟨start, mid ++ rest⟩ = x' at hloc
      generalize pullLocation prof ⟨start, mid ++ rest'⟩ = y' at hloc
      cases hloc with
      | failed e => exact .inl ⟨rfl, rfl⟩
      | inside loc next mid' hnext =>
          by_cases hfill : next = start + len
          · exact .inr ⟨loc, next, mid', hnext, if_pos hfill, if_pos hfill⟩
          · exact .inl ⟨if_neg hfill, if_neg hfill⟩
      | lost hxl hyl =>
          have hend : start + len ≤ stop := by omega
          exact .inl ⟨fills_lost hend hxl, fills_lost hend hyl⟩

instance pullLocationParam_framed (remaining prevKey : Nat) :
    Framed MoqtError.Violation stop (pullLocationParam prof stop remaining prevKey) where
  framedAt pos := by
    constructor
    · intro body rest rest' hstop
      unfold pullLocationParam
      rcases inlineLocation_settled prof hstop rest rest' with
        ⟨hx, hy⟩ | ⟨loc, next, mid, hnext, hx, hy⟩ <;>
        rcases prefixedLocation_settled prof hstop rest rest' with
          ⟨hx', hy'⟩ | ⟨loc', next', mid', hnext', hx', hy'⟩
      · simp only [hx, hy, hx', hy']
        exact .failed _
      · simp only [hx, hy, hx', hy']
        exact .inside _ _ _ hnext'
      · simp only [hx, hy, hx', hy']
        exact .inside _ _ _ hnext
      · simp only [hx, hy, hx', hy']
        rw [suffixParses_eq prof hnext rest rest', suffixParses_eq prof hnext' rest rest']
        split
        · exact .inside _ _ _ hnext'
        · exact .inside _ _ _ hnext
    · intro hpos rest
      have hinline := inlineLocation_lost prof (((pullLocation_framed prof).framedAt pos).past hpos
        rest)
      have hprefixed := prefixedLocation_lost prof (((pullVint_framed prof).framedAt pos).past hpos
        rest)
      simp only [pullLocationParam, hinline, hprefixed]
      rfl

/-! ## Values -/

/-- A token is unwrapped only where it lies inside the message. -/
instance pullBytesValue_framed (ptype : Nat) :
    Framed MoqtError.Violation stop (pullBytesValue prof ptype stop) := by
  unfold pullBytesValue
  apply Framed.seq inferInstance
  intro len
  constructor
  intro pos
  apply FramedAt.tell_bind
  dsimp only
  split
  · exact Framed.fail.framedAt pos
  split
  · exact Framed.fail.framedAt pos
  next hin =>
  apply FramedAt.bytes_bind underflow_violation
  intro raw
  split
  · split
    · exact .pure _ _
    · exact .fail_inside (Nat.le_of_not_lt hin) _
  · exact .pure _ _

theorem pullKindValue_framed {kind : ParamKind} (hkind : kind ≠ .fill) (ptype remaining : Nat) :
    Framed MoqtError.Violation stop (pullKindValue prof kind ptype stop remaining) := by
  cases kind with
  | fill => exact absurd rfl hkind
  | _ =>
      unfold pullKindValue
      infer_instance

instance pullParityValue_framed (ptype remaining : Nat) :
    Framed MoqtError.Violation stop (pullParityValue prof ptype stop remaining) := by
  unfold pullParityValue
  infer_instance

/-- A parameter the draft defines, other than FILL_PARAMETERS. -/
theorem pullPlainValue_framed {ptype : Nat}
    (hkind : prof.draft18 → paramKind prof ptype ≠ none ∧ paramKind prof ptype ≠ some .fill)
    (remaining : Nat) :
    Framed MoqtError.Violation stop (pullPlainValue prof stop ptype remaining) := by
  unfold pullPlainValue
  split
  · next hdraft =>
      split
      · next hnone => exact absurd hnone (hkind hdraft).1
      · next kind hsome =>
          apply pullKindValue_framed
          rintro rfl
          exact (hkind hdraft).2 hsome
  · infer_instance

/-! ## Blocks -/

instance checkParamType_fails (scope : Option ParamScope) (ptype : Nat) :
    Fails MoqtError.Violation (checkParamType prof scope ptype) := by
  unfold checkParamType
  infer_instance

instance checkParamValue_fails (scope : Option ParamScope) (ptype : Nat) (scalar : Option Nat) :
    Fails MoqtError.Violation (checkParamValue prof scope ptype scalar) := by
  unfold checkParamValue
  dsimp only
  split
  · infer_instance
  · split <;> infer_instance

theorem checkParamType_known {scope : Option ParamScope} {ptype : Nat}
    (h : checkParamType prof scope ptype = .ok ()) (hdraft : prof.draft18) :
    paramKind prof ptype ≠ none := by
  intro hnone
  simp [checkParamType, hdraft, hnone] at h

section Block

variable {α : Type} (scalar : α → Option Nat) {pullValue : Nat → Nat → Reader MoqtError α}
variable {scope : Option ParamScope}

theorem pullInstance_framed
    (hvalue : ∀ ptype remaining, checkParamType prof scope ptype = .ok () →
      Framed MoqtError.Violation stop (pullValue ptype remaining))
    (remaining prevKey : Nat) (items : List (Nat × α)) :
    Framed MoqtError.Violation stop
      (pullInstance prof scalar pullValue stop scope remaining prevKey items) := by
  unfold pullInstance
  apply Framed.seq inferInstance
  intro raw
  dsimp only
  split
  · next e he => exact Framed.fail_of_lost ((checkParamType_fails prof _ _).fails e he)
  next hok =>
  apply Framed.seq (hvalue _ _ hok)
  intro value
  apply Framed.seq inferInstance
  intro pos
  split
  · infer_instance
  split
  · next e he => exact Framed.fail_of_lost ((checkParamValue_fails prof _ _ _).fails e he)
  · infer_instance

/-- A parameter that was read ends inside the block. -/
theorem pullInstance_inside {bufEnd remaining prevKey : Nat} {items : List (Nat × α)}
    {item : Nat × α} {cur last : Cursor}
    (h : pullInstance prof scalar pullValue bufEnd scope remaining prevKey items cur =
      .ok (item, last)) : last.pos ≤ bufEnd := by
  unfold pullInstance at h
  obtain ⟨raw, cur₁, -, h⟩ := Reader.bind_eq_ok.mp h
  generalize (if prof.paramsDeltaCoded then prevKey + raw else raw) = ptype at h
  cases htype : checkParamType prof scope ptype with
  | error e => simp [htype, Reader.fail] at h
  | ok _ =>
      simp only [htype] at h
      obtain ⟨value, cur₂, -, h⟩ := Reader.bind_eq_ok.mp h
      obtain ⟨pos, cur₃, hpos, h⟩ := Reader.bind_eq_ok.mp h
      obtain ⟨rfl, rfl⟩ : cur₂.pos = pos ∧ cur₂ = cur₃ := by simpa [Reader.tell] using hpos
      by_cases hin : bufEnd < cur₂.pos
      · simp [hin, Reader.fail] at h
      have hlast : cur₂ = last := by
        rw [if_neg hin] at h
        cases hvalue : checkParamValue prof scope ptype (scalar value) with
        | error e => simp [hvalue, Reader.fail] at h
        | ok _ =>
            simp only [hvalue] at h
            split at h
            · simp [Reader.fail] at h
            · exact (Reader.pure_eq_ok.mp h).2
      rw [← hlast]
      exact Nat.le_of_not_lt hin

theorem pullInstances_framed
    (hvalue : ∀ ptype remaining, checkParamType prof scope ptype = .ok () →
      Framed MoqtError.Violation stop (pullValue ptype remaining))
    (declared n prevKey : Nat) (items : List (Nat × α)) :
    Framed MoqtError.Violation stop
      (pullInstances prof scalar pullValue stop scope declared n prevKey items) := by
  induction n generalizing prevKey items with
  | zero => exact Framed.pure items
  | succ n ih =>
      have hitem := pullInstance_framed prof scalar hvalue
      unfold pullInstances
      infer_instance

theorem pullInstances_inside {bufEnd declared n prevKey : Nat} {items : List (Nat × α)}
    {result : List (Nat × α)} {cur last : Cursor} (hpos : cur.pos ≤ bufEnd)
    (h : pullInstances prof scalar pullValue bufEnd scope declared n prevKey items cur =
      .ok (result, last)) : last.pos ≤ bufEnd := by
  induction n generalizing prevKey items cur with
  | zero =>
      obtain ⟨-, rfl⟩ := Reader.pure_eq_ok.mp h
      exact hpos
  | succ n ih =>
      unfold pullInstances at h
      obtain ⟨pos, cur₁, hcur, h⟩ := Reader.bind_eq_ok.mp h
      split at h
      · exact absurd h (by simp [Reader.fail])
      obtain ⟨item, cur₂, hitem, h⟩ := Reader.bind_eq_ok.mp h
      exact ih (pullInstance_inside prof scalar hitem) h

theorem pullCounted_framed
    (hvalue : ∀ ptype remaining, checkParamType prof scope ptype = .ok () →
      Framed MoqtError.Violation stop (pullValue ptype remaining)) :
    Framed MoqtError.Violation stop (pullCounted prof scalar pullValue stop scope) :=
  Framed.seq inferInstance fun count => pullInstances_framed prof scalar hvalue count count 0 []

theorem pullBare_framed
    (hvalue : ∀ ptype remaining, checkParamType prof scope ptype = .ok () →
      Framed MoqtError.Violation stop (pullValue ptype remaining))
    (fuel prevKey : Nat) (items : List (Nat × α)) :
    Framed MoqtError.Violation stop
      (pullBare prof scalar pullValue stop scope fuel prevKey items) := by
  induction fuel generalizing prevKey items with
  | zero => exact Framed.pure items
  | succ fuel ih =>
      have hitem := pullInstance_framed prof scalar hvalue
      unfold pullBare
      infer_instance

end Block

/-! ## FILL_PARAMETERS -/

theorem mem_of_lookup {α : Type} {table : List (Nat × α)} {key : Nat} {a : α}
    (h : table.lookup key = some a) : (key, a) ∈ table := by
  obtain ⟨head, tail, rfl, -⟩ := List.lookup_eq_some_iff.mp h
  simp

theorem paramKind_fill {ptype : Nat} (h : paramKind prof ptype = some .fill) :
    prof.paramTable ≠ 18 ∧ ptype = ParamType.fillParameters := by
  unfold paramKind at h
  split at h
  · simp at h
  split at h
  · have hmem := mem_of_lookup h
    simp [d18ParamKinds] at hmem
  · next htable =>
      have hmem := mem_of_lookup h
      exact ⟨htable, by simpa [d20ParamKinds, ParamType.fillParameters] using hmem⟩

/-- FILL_PARAMETERS is not allowed inside itself. -/
theorem fillParameters_scope {ptype : Nat}
    (h : checkParamType prof (some .fillParameters) ptype = .ok ()) (hdraft : prof.draft18) :
    paramKind prof ptype ≠ some .fill := by
  intro hfill
  obtain ⟨htable, rfl⟩ := paramKind_fill prof hfill
  rw [checkParamType, if_neg (by simp [hfill]), if_pos (by
    simp [paramScope, hdraft, htable, d20ParamScope, ParamType.fillParameters])] at h
  exact absurd h (by simp)

theorem fillValue_framed (ptype remaining : Nat)
    (h : checkParamType prof (some .fillParameters) ptype = .ok ()) :
    Framed MoqtError.Violation stop (pullPlainValue prof stop ptype remaining) :=
  pullPlainValue_framed prof
    (fun hdraft => ⟨checkParamType_known prof h hdraft, fillParameters_scope prof h hdraft⟩)
    remaining

instance pullFillCounted_framed : Framed MoqtError.Violation stop (pullFillCounted prof stop) :=
  pullCounted_framed prof _ (fillValue_framed prof)

instance pullFillBare_framed : Framed MoqtError.Violation stop (pullFillBare prof stop) := by
  have hbare : ∀ fuel prevKey items, Framed MoqtError.Violation stop
      (pullBare prof PlainValue.scalar (pullPlainValue prof stop) stop (some .fillParameters) fuel
        prevKey items) :=
    pullBare_framed prof _ (fillValue_framed prof)
  unfold pullFillBare
  infer_instance

/-- A block whose first integer does not end inside it. -/
theorem pullCounted_short {α : Type} {scalar : α → Option Nat}
    {pullValue : Nat → Nat → Reader MoqtError α} {bufEnd : Nat} {scope : Option ParamScope}
    {body : Bytes} (h : prof.vint.dec body = none) (pos : Nat) :
    pullCounted prof scalar pullValue bufEnd scope ⟨pos, body⟩ = .error (.underflow pos) := by
  simp [pullCounted, pullVint, Reader.int, h, bind, StateT.bind, Except.bind]

theorem pullFillBare_short {body : Bytes} (h : prof.vint.dec body = none) {pos : Nat}
    (hpos : pos < stop) : pullFillBare prof stop ⟨pos, body⟩ = .error (.underflow pos) := by
  obtain ⟨fuel, hfuel⟩ : ∃ fuel, stop - pos = fuel + 1 := ⟨stop - pos - 1, by omega⟩
  have hin : ¬ stop ≤ pos := by omega
  simp [pullFillBare, Reader.tell, hfuel, pullBare, hin, pullInstance, pullVint, Reader.int, h,
    bind, StateT.bind, Except.bind]

/-- A first attempt that is kept if it ends at `stop`, and a second one. -/
def keptAt {α : Type} (stop : Nat) (first second : Except MoqtError (α × Cursor)) :
    Except MoqtError (α × Cursor) :=
  match first with
  | .ok (a, next) => if next.pos = stop then .ok (a, next) else second
  | .error e => if e.isViolation then second else .error e

theorem keptAt_lost {α : Type} {first : Except MoqtError (α × Cursor)}
    (h : Lost MoqtError.Violation stop first) (second : Except MoqtError (α × Cursor)) :
    keptAt stop first second = second := by
  cases first with
  | error e => exact if_pos h
  | ok result => exact if_neg (Nat.ne_of_gt h)

theorem keptAt_agree {α : Type} {rest rest' : Bytes}
    {first first' second second' : Except MoqtError (α × Cursor)}
    (hfirst : Agree MoqtError.Violation stop rest rest' first first')
    (hsecond : Agree MoqtError.Violation stop rest rest' second second') :
    Agree MoqtError.Violation stop rest rest' (keptAt stop first second)
      (keptAt stop first' second') := by
  cases hfirst with
  | inside a next mid hnext =>
      by_cases hend : next = stop
      · simp only [keptAt, if_pos hend]
        exact .inside a next mid hnext
      · simp only [keptAt, if_neg hend]
        exact hsecond
  | failed e =>
      by_cases he : e.isViolation
      · simp only [keptAt, if_pos he]
        exact hsecond
      · simp only [keptAt, if_neg he]
        exact .failed e
  | lost hx hy =>
      rw [keptAt_lost hx, keptAt_lost hy]
      exact hsecond

theorem pullFillValue_eq {first : Nat} {cur next : Cursor}
    (h : pullVint prof.vint cur = .ok (first, next)) :
    pullFillValue prof stop cur =
      if first < 0x0A then pullFillCounted prof stop cur
      else keptAt stop (pullFillCounted prof stop cur) (pullFillBare prof stop cur) := by
  simp only [pullFillValue, h]
  cases pullFillCounted prof stop cur <;> rfl

theorem pullFillValue_lost {cur : Cursor}
    (hfirst : Lost MoqtError.Violation stop (pullVint prof.vint cur))
    (hcounted : Lost MoqtError.Violation stop (pullFillCounted prof stop cur))
    (hbare : Lost MoqtError.Violation stop (pullFillBare prof stop cur)) :
    Lost MoqtError.Violation stop (pullFillValue prof stop cur) := by
  cases h : pullVint prof.vint cur with
  | error e =>
      rw [h] at hfirst
      simp only [pullFillValue, h]
      exact hfirst
  | ok result =>
      rw [pullFillValue_eq prof h]
      split
      · exact hcounted
      · rw [keptAt_lost hcounted]
        exact hbare

/-- Both forms of the value stay inside it, and which one is taken is decided inside. -/
theorem pullFillValue_framedAt {pos : Nat} (hpos : pos < stop) :
    FramedAt MoqtError.Violation stop pos (pullFillValue prof stop) := by
  have hbare : FramedAt MoqtError.Violation stop pos (pullFillBare prof stop) :=
    (pullFillBare_framed prof).framedAt pos
  have hcounted : FramedAt MoqtError.Violation stop pos (pullFillCounted prof stop) :=
    (pullFillCounted_framed prof).framedAt pos
  constructor
  · intro body rest rest' hstop
    cases hdec : prof.vint.dec body with
    | none =>
        have hlost : ∀ rest, Lost MoqtError.Violation stop
            (pullFillValue prof stop ⟨pos, body ++ rest⟩) := by
          intro rest
          apply pullFillValue_lost prof
          · exact int_lost prof.vint_local underflow_violation hdec hstop rest
          · exact hcounted.lost_of_short hstop (underflow_violation pos)
              (pullCounted_short prof hdec pos) rest
          · exact hbare.lost_of_short hstop (underflow_violation pos)
              (pullFillBare_short prof hdec hpos) rest
        exact .lost (hlost rest) (hlost rest')
    | some result =>
        rw [pullFillValue_eq prof (int_inside hdec pos rest),
          pullFillValue_eq prof (int_inside hdec pos rest')]
        by_cases hcount : result.1 < 0x0A
        · rw [if_pos hcount, if_pos hcount]
          exact hcounted.inside body rest rest' hstop
        · rw [if_neg hcount, if_neg hcount]
          exact keptAt_agree (hcounted.inside body rest rest' hstop)
            (hbare.inside body rest rest' hstop)
  · intro h
    omega

instance pullFillSized_framed : Framed MoqtError.Violation stop (pullFillSized prof stop) := by
  unfold pullFillSized
  apply Framed.seq inferInstance
  intro len
  constructor
  intro start
  apply FramedAt.tell_bind
  dsimp only
  split
  · exact Framed.fail.framedAt start
  next hin =>
  apply FramedAt.fill (violation_violation _) (Nat.le_of_not_lt hin) (Nat.le_add_right _ _)
  · split
    · exact .pure _ _
    · next hlen => exact pullFillValue_framedAt prof (by omega)
  · intro items
    exact .pure _ _

/-! ## The parameters of a message -/

theorem pullParamValue_framed (fillCounted : Bool) {scope : Option ParamScope}
    (ptype remaining : Nat) (h : checkParamType prof scope ptype = .ok ()) :
    Framed MoqtError.Violation stop (pullParamValue prof fillCounted stop ptype remaining) := by
  unfold pullParamValue
  split
  · infer_instance
  · next hfill =>
      have hvalue : Framed MoqtError.Violation stop (pullPlainValue prof stop ptype remaining) :=
        pullPlainValue_framed prof (fun hdraft => ⟨checkParamType_known prof h hdraft,
          fun hkind => hfill ⟨hdraft, hkind⟩⟩) remaining
      infer_instance

theorem pullParams_framed (fillCounted : Bool) (scope : Option ParamScope) :
    Framed MoqtError.Violation stop (pullParams prof fillCounted stop scope) :=
  pullCounted_framed prof _ (pullParamValue_framed prof fillCounted)

/-- A block whose count lies inside it ends inside it. -/
theorem pullParams_inside {fillCounted : Bool} {scope : Option ParamScope} {body mid : Bytes}
    {count pos : Nat} (hdec : prof.vint.dec body = some (count, mid))
    (hstop : pos + body.length = stop) {rest : Bytes} {items : List (Nat × ParamValue)}
    {last : Cursor}
    (h : pullParams prof fillCounted stop scope ⟨pos, body ++ rest⟩ = .ok (items, last)) :
    last.pos ≤ stop := by
  obtain ⟨n, start, hcount, h⟩ := Reader.bind_eq_ok.mp h
  rw [pullVint, int_inside hdec] at hcount
  obtain ⟨rfl, rfl⟩ := Prod.mk.inj (Except.ok.inj hcount)
  exact pullInstances_inside prof _ (by dsimp only; omega) h

theorem isViolation_of_lost {α : Type} {e : MoqtError}
    (h : Lost MoqtError.Violation stop (.error e : Except MoqtError (α × Cursor))) :
    e.isViolation = true := h

/-- The second reading of a block with FILL_PARAMETERS that did not end at `stop`. -/
def reread {α : Type} (x : Except MoqtError (α × Cursor)) : Except MoqtError (α × Cursor) :=
  match x with
  | .ok result => .ok result
  | .error e =>
      if e.isViolation then .error (.violation "FILL_PARAMETERS block does not end the parameters")
      else .error e

theorem reread_lost {α : Type} {x : Except MoqtError (α × Cursor)}
    (h : Lost MoqtError.Violation stop x) : Lost MoqtError.Violation stop (reread x) := by
  cases x with
  | ok result => exact h
  | error e =>
      rw [reread, if_pos (isViolation_of_lost h)]
      exact violation_violation _

theorem reread_agree {α : Type} {rest rest' : Bytes} {x y : Except MoqtError (α × Cursor)}
    (h : Agree MoqtError.Violation stop rest rest' x y) :
    Agree MoqtError.Violation stop rest rest' (reread x) (reread y) := by
  cases h with
  | inside a next mid hnext => exact .inside a next mid hnext
  | failed e =>
      by_cases he : e.isViolation
      · rw [reread, if_pos he]
        exact .failed _
      · rw [reread, if_neg he]
        exact .failed e
  | lost hx hy => exact .lost (reread_lost hx) (reread_lost hy)

theorem deserializeItems_ok {scope : Option ParamScope} {cur : Cursor}
    {result : List (Nat × ParamValue) × Cursor}
    (h : pullParams prof false stop scope cur = .ok result) :
    deserializeItems prof stop scope cur =
      if ¬ result.1.any (·.2.isFill) ∨ result.2.pos = stop then .ok result
      else reread (pullParams prof true stop scope cur) := by
  simp only [deserializeItems, h]
  cases pullParams prof true stop scope cur <;> rfl

theorem deserializeItems_error {scope : Option ParamScope} {cur : Cursor} {e : MoqtError}
    (h : pullParams prof false stop scope cur = .error e) :
    deserializeItems prof stop scope cur =
      if e.isViolation then pullParams prof true stop scope cur else .error e := by
  simp only [deserializeItems, h]

theorem deserializeItems_lost {scope : Option ParamScope} {cur : Cursor}
    (hsized : Lost MoqtError.Violation stop (pullParams prof false stop scope cur))
    (hcounted : Lost MoqtError.Violation stop (pullParams prof true stop scope cur)) :
    Lost MoqtError.Violation stop (deserializeItems prof stop scope cur) := by
  cases hx : pullParams prof false stop scope cur with
  | error e =>
      rw [hx] at hsized
      rw [deserializeItems_error prof hx, if_pos (isViolation_of_lost hsized)]
      exact hcounted
  | ok result =>
      rw [hx] at hsized
      rw [deserializeItems_ok prof hx]
      split
      · exact hsized
      · exact reread_lost hcounted

/-- A block whose count lies inside it: one that is read again is so in both runs. -/
theorem deserializeItems_agree {scope : Option ParamScope} {body mid : Bytes} {count pos : Nat}
    (hdec : prof.vint.dec body = some (count, mid)) (hstop : pos + body.length = stop)
    (rest rest' : Bytes) :
    Agree MoqtError.Violation stop rest rest' (deserializeItems prof stop scope ⟨pos, body ++ rest⟩)
      (deserializeItems prof stop scope ⟨pos, body ++ rest'⟩) := by
  have hcounted := ((pullParams_framed prof true scope).framedAt pos).inside body rest rest' hstop
  have hsized := ((pullParams_framed prof false scope).framedAt pos).inside body rest rest' hstop
  -- leaving the message is an error of the block, so a lost run is reread
  have hlost : ∀ rest, Lost MoqtError.Violation stop
      (pullParams prof false stop scope ⟨pos, body ++ rest⟩) →
      deserializeItems prof stop scope ⟨pos, body ++ rest⟩ =
        pullParams prof true stop scope ⟨pos, body ++ rest⟩ := by
    intro rest h
    cases hx : pullParams prof false stop scope ⟨pos, body ++ rest⟩ with
    | error e =>
        rw [hx] at h
        rw [deserializeItems_error prof hx, if_pos (isViolation_of_lost h)]
    | ok result =>
        rw [hx] at h
        have hin : result.2.pos ≤ stop := pullParams_inside prof hdec hstop hx
        exact absurd h (Nat.not_lt_of_le hin)
  generalize hx : pullParams prof false stop scope ⟨pos, body ++ rest⟩ = x at hsized
  generalize hy : pullParams prof false stop scope ⟨pos, body ++ rest'⟩ = y at hsized
  cases hsized with
  | inside items next mid hnext =>
      rw [deserializeItems_ok prof hx, deserializeItems_ok prof hy]
      dsimp only
      split
      · exact .inside items next mid hnext
      · exact reread_agree hcounted
  | failed e =>
      rw [deserializeItems_error prof hx, deserializeItems_error prof hy]
      split
      · exact hcounted
      · exact .failed e
  | lost hxl hyl =>
      rw [hlost rest (hx ▸ hxl), hlost rest' (hy ▸ hyl)]
      exact hcounted

instance deserializeItems_framed (scope : Option ParamScope) :
    Framed MoqtError.Violation stop (deserializeItems prof stop scope) where
  framedAt pos := by
    have hframed : ∀ fillCounted, FramedAt MoqtError.Violation stop pos
        (pullParams prof fillCounted stop scope) :=
      fun fillCounted => (pullParams_framed prof fillCounted scope).framedAt pos
    constructor
    · intro body rest rest' hstop
      cases hdec : prof.vint.dec body with
      | some result => exact deserializeItems_agree prof hdec hstop rest rest'
      | none =>
          have hshort : ∀ fillCounted rest, Lost MoqtError.Violation stop
              (pullParams prof fillCounted stop scope ⟨pos, body ++ rest⟩) :=
            fun fillCounted => (hframed fillCounted).lost_of_short hstop
              (underflow_violation pos) (pullCounted_short prof hdec pos)
          exact .lost (deserializeItems_lost prof (hshort false rest) (hshort true rest))
            (deserializeItems_lost prof (hshort false rest') (hshort true rest'))
    · intro hpos rest
      exact deserializeItems_lost prof ((hframed false).past hpos rest)
        ((hframed true).past hpos rest)

instance deserializeParams_framed (scope : Option ParamScope) :
    Framed MoqtError.Violation stop (deserializeParams prof stop scope) := by
  unfold deserializeParams
  infer_instance

/-! ## Key-Value-Pairs to the end of a message -/

instance pullKvp_framed (mode : KvpMode) (extsEnd prev : Nat) :
    Framed MoqtError.Violation stop (pullKvp prof.vint mode extsEnd prev) := by
  unfold pullKvp pullKvpValue pullKvpBytes
  infer_instance

/-- A block that runs to the end of a control message. -/
def trailing (delta : Bool) : KvpMode :=
  { withLength := false, delta, lenient := true, tolerate := false }

theorem pullKvps_ok {delta : Bool} {fuel prev : Nat} {kvps : KeyValuePairs} {cur next : Cursor}
    {extId : Nat} {value : KvpValue} (hpos : cur.pos < stop)
    (h : pullKvp prof.vint (trailing delta) stop prev cur = .ok ((extId, value), next))
    (hnext : next.pos ≤ stop) :
    pullKvps prof.vint (trailing delta) stop (fuel + 1) prev kvps cur =
      pullKvps prof.vint (trailing delta) stop fuel extId (kvps.put extId value) next := by
  simp only [pullKvps, if_neg (Nat.not_le_of_gt hpos), h, if_neg (Nat.not_lt_of_le hnext)]

/-- Where a pair is cut, or ends behind the message, the block is refused. -/
theorem pullKvps_lost {delta : Bool} {fuel prev : Nat} {kvps : KeyValuePairs} {cur : Cursor}
    (hpos : cur.pos < stop)
    (h : Lost MoqtError.Violation stop (pullKvp prof.vint (trailing delta) stop prev cur)) :
    Lost MoqtError.Violation stop
      (pullKvps prof.vint (trailing delta) stop (fuel + 1) prev kvps cur) := by
  cases hx : pullKvp prof.vint (trailing delta) stop prev cur with
  | ok result =>
      rw [hx] at h
      have hpast : stop < result.2.pos := h
      simp only [pullKvps, if_neg (Nat.not_le_of_gt hpos), hx, if_pos hpast]
      rfl
  | error e =>
      rw [hx] at h
      simp only [pullKvps, if_neg (Nat.not_le_of_gt hpos), hx]
      cases e with
      | underflow pos => rfl
      | _ => exact h

theorem pullKvps_framed (delta : Bool) (fuel prev : Nat) (kvps : KeyValuePairs) :
    Framed MoqtError.Violation stop
      (pullKvps prof.vint (trailing delta) stop fuel prev kvps) := by
  induction fuel generalizing prev kvps with
  | zero => exact Framed.pure kvps
  | succ fuel ih =>
      constructor
      intro pos
      constructor
      · intro body rest rest' hstop
        by_cases hend : pos = stop
        · obtain rfl : body = [] := List.length_eq_zero_iff.mp (by omega)
          simp only [pullKvps, if_pos (Nat.le_of_eq hend.symm)]
          exact .inside kvps pos [] hstop
        have hpos : pos < stop := by omega
        have hpair := ((pullKvp_framed prof (trailing delta) stop prev).framedAt pos).inside body
          rest rest' hstop
        generalize hx : pullKvp prof.vint (trailing delta) stop prev ⟨pos, body ++ rest⟩ = x
          at hpair
        generalize hy : pullKvp prof.vint (trailing delta) stop prev ⟨pos, body ++ rest'⟩ = y
          at hpair
        cases hpair with
        | inside pair next mid hnext =>
            rw [pullKvps_ok prof hpos hx (by dsimp only; omega),
              pullKvps_ok prof hpos hy (by dsimp only; omega)]
            exact ((ih pair.1 _).framedAt next).inside mid rest rest' hnext
        | failed e =>
            simp only [pullKvps, if_neg (Nat.not_le_of_gt hpos), hx, hy]
            cases e <;> exact .failed _
        | lost hxl hyl =>
            exact .lost (pullKvps_lost prof hpos (hx ▸ hxl)) (pullKvps_lost prof hpos (hy ▸ hyl))
      · intro hpos rest
        simp only [pullKvps, if_pos (Nat.le_of_lt hpos)]
        exact hpos

instance extensionsDecodeTo_framed (delta : Bool) :
    Framed MoqtError.Violation stop (extensionsDecodeTo prof.vint stop delta true false) := by
  have hkvps := @pullKvps_framed stop prof delta
  unfold trailing at hkvps
  unfold extensionsDecodeTo
  infer_instance

end

end AioMoqt.Messages
