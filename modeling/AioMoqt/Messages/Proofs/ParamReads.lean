import AioMoqt.Messages.Proofs.Filters

/-!
# What a decoder reads of an encoded parameter block

In front of what the encoder wrote of values the decoder has no objection to, it takes
exactly these bytes and returns the dictionary as it is received.
-/

namespace AioMoqt.Messages

open AioMoqt.Lib AioMoqt.Lib.BigEndian AioMoqt.Lib.Reader

/-! ## Tokens -/

section Token

variable {code : PrefixCode}

/-- An operation on the token cache as it comes back: with the fields its alias type
carries. -/
def AuthTokenRef.received (ref : AuthTokenRef) : PlainValue :=
  match ref.aliasType with
  | .register =>
      .tokenRef ⟨.register, ref.tokenAlias, some (ref.tokenType.getD 0), some (ref.value.getD [])⟩
  | .useValue => .token ⟨[], ref.tokenAlias⟩
  | aliasType => .tokenRef ⟨aliasType, ref.tokenAlias, none, none⟩

/-- A token as it comes back: a bare value is an out-of-band token. -/
def PlainValue.receivedToken : PlainValue → PlainValue
  | .bytes value => .token ⟨value, 0⟩
  | .tokenRef ref => ref.received
  | value => value

/-- The tail of a token, up to its length. -/
theorem tail_reads {α : Type} {len pos : Nat} {value : Bytes} (hlen : pos + value.length = len)
    (f : Bytes → α) :
    Reads (Reader.tell >>= fun at' => pullBytes (len - at') >>= fun v => pure (f v)) pos value
      (f value) := by
  apply Reads.tell_bind
  have hrest : len - pos = value.length := by omega
  rw [hrest]
  exact (Reads.bytes _ value pos).map f

theorem pullAuthToken_reads {value : PlainValue} {raw : Bytes}
    (h : authTokenWrap code value = .ok raw) :
    Reads (pullAuthToken code raw.length) 0 raw value.receivedToken := by
  cases value with
  | bytes value =>
      obtain ⟨kind, hkind, h⟩ := except_bind_eq_ok.mp h
      obtain ⟨type, htype, h⟩ := except_bind_eq_ok.mp h
      cases h
      unfold pullAuthToken
      rw [List.append_assoc]
      apply (pullVint_reads_of hkind 0).bind
      rw [if_pos rfl]
      apply (pullVint_reads_of htype _).bind
      apply tail_reads
      simp only [List.length_append]
      omega
  | token token =>
      obtain ⟨kind, hkind, h⟩ := except_bind_eq_ok.mp h
      obtain ⟨type, htype, h⟩ := except_bind_eq_ok.mp h
      cases h
      unfold pullAuthToken
      rw [List.append_assoc]
      apply (pullVint_reads_of hkind 0).bind
      rw [if_pos rfl]
      apply (pullVint_reads_of htype _).bind
      apply tail_reads
      simp only [List.length_append]
      omega
  | tokenRef ref =>
      obtain ⟨kind, hkind, h⟩ := except_bind_eq_ok.mp h
      obtain ⟨name, hname, h⟩ := except_bind_eq_ok.mp h
      obtain ⟨aliasType, tokenAlias, tokenType, value⟩ := ref
      unfold pullAuthToken
      cases aliasType with
      | register =>
          obtain ⟨type, htype, h⟩ := except_bind_eq_ok.mp h
          cases h
          simp only [List.append_assoc]
          apply (pullVint_reads_of hkind 0).bind
          dsimp only
          rw [if_neg (by decide), if_pos rfl]
          apply (pullVint_reads_of hname _).bind
          apply (pullVint_reads_of htype _).bind
          apply tail_reads
          simp only [List.length_append]
          omega
      | useValue =>
          cases h
          apply (pullVint_reads_of hkind 0).bind
          rw [if_pos rfl]
          apply (pullVint_reads_of hname _).bind_last
          apply tail_reads
          simp only [List.length_append, List.length_nil]
          omega
      | delete =>
          cases h
          apply (pullVint_reads_of hkind 0).bind
          dsimp only
          rw [if_neg (by decide), if_neg (by decide), if_pos (by decide)]
          apply (pullVint_reads_of hname _).bind_last
          apply Reads.tell_bind
          rw [if_pos (by simp only [List.length_append]; omega)]
          exact Reads.pure _ _
      | useAlias =>
          cases h
          apply (pullVint_reads_of hkind 0).bind
          dsimp only
          rw [if_neg (by decide), if_neg (by decide), if_pos (by decide)]
          apply (pullVint_reads_of hname _).bind_last
          apply Reads.tell_bind
          rw [if_pos (by simp only [List.length_append]; omega)]
          exact Reads.pure _ _
  | _ => cases h

theorem authTokenUnwrap_wrap {value : PlainValue} {raw : Bytes}
    (h : authTokenWrap code value = .ok raw) :
    authTokenUnwrap code raw = .ok value.receivedToken := by
  have hread := pullAuthToken_reads h []
  rw [List.append_nil] at hread
  unfold authTokenUnwrap
  rw [hread]

end Token

section

variable {prof : DraftProfile}

/-! ## Track Namespaces -/

theorem pullSized_reads (bs : Bytes) (what : String) (pos : Nat) :
    Reads (pullSized bs.length what) pos bs bs := by
  intro rest
  unfold pullSized
  rw [if_neg (by simp)]
  exact Reads.bytes _ bs pos rest

theorem pullTupleFields_reads {bufEnd : Option Nat} {parts : List Bytes} :
    ∀ {bs : Bytes}, pushFields prof parts = .ok bs → ∀ {pos},
      (∀ stop ∈ bufEnd, pos + bs.length ≤ stop) →
      Reads (pullTupleFields prof bufEnd parts.length) pos bs parts := by
  induction parts with
  | nil =>
      intro bs h pos _
      cases h
      exact Reads.pure pos []
  | cons part parts ih =>
      intro bs h pos hend
      obtain ⟨len, hlen, h⟩ := except_bind_eq_ok.mp h
      obtain ⟨tail, htail, h⟩ := except_bind_eq_ok.mp h
      cases h
      simp only [List.length_append] at hend
      rw [List.append_assoc]
      apply (pullVint_reads_of hlen pos).bind
      apply Reads.tell_bind
      apply Reads.guard
      · rw [Option.any_eq_true]
        rintro ⟨stop, hstop, hover⟩
        have hfits := hend stop hstop
        have hlt := of_decide_eq_true hover
        omega
      · apply (pullSized_reads part _ _).bind
        refine (ih htail ?_).map _
        intro stop hstop
        have hfits := hend stop hstop
        omega

/-- A namespace is read unless a check is against it, up to draft 14 only that of the number
of its fields. -/
theorem pullTuple_decides {bufEnd : Option Nat} {parts : List Bytes} {bs : Bytes}
    (h : pushTuple prof parts = .ok bs) {pos : Nat} (hend : ∀ stop ∈ bufEnd, pos + bs.length ≤ stop) :
    Decides (pullTuple prof bufEnd) pos bs
      (parts.length ≤ namespaceMaxFields ∧
        (prof.draft16 = true → [] ∉ parts ∧ tupleSize parts ≤ fullTrackNameMax)) parts := by
  obtain ⟨n, hn, h⟩ := except_bind_eq_ok.mp h
  obtain ⟨fields, hfields, h⟩ := except_bind_eq_ok.mp h
  cases h
  rw [List.length_append] at hend
  have hbehind : ∀ stop ∈ bufEnd, pos + n.length + fields.length ≤ stop := by
    intro stop hstop
    have hle := hend stop hstop
    omega
  have hread : Decides (pullTuple prof bufEnd) pos (n ++ fields)
      (¬ namespaceMaxFields < parts.length ∧ ¬ (prof.draft16 = true ∧ [] ∈ parts) ∧
        ¬ (prof.draft16 = true ∧ fullTrackNameMax < tupleSize parts) ∧ True) parts := by
    apply (pullVint_reads_of hn pos).bind_decides
    apply Decides.guard
    apply (pullTupleFields_reads hfields hbehind).bind_last_decides
    apply Decides.guard
    exact Decides.guard (Reads.pure _ parts).decides
  refine hread.congr ?_
  by_cases hdraft : prof.draft16 <;> simp [hdraft]

/-- A namespace the decoder takes: not too many fields, none of them empty, and not too long. -/
structure NamespaceFits (parts : List Bytes) : Prop where
  fields : parts.length ≤ namespaceMaxFields
  nonempty : [] ∉ parts
  size : tupleSize parts ≤ fullTrackNameMax

theorem pullTuple_reads {bufEnd : Option Nat} {parts : List Bytes} (hfits : NamespaceFits parts)
    {bs : Bytes} (h : pushTuple prof parts = .ok bs) {pos : Nat}
    (hend : ∀ stop ∈ bufEnd, pos + bs.length ≤ stop) :
    Reads (pullTuple prof bufEnd) pos bs parts :=
  (pullTuple_decides h hend).reads ⟨hfits.fields, fun _ => ⟨hfits.nonempty, hfits.size⟩⟩

/-- A full name the decoder takes. -/
structure FullNameFits (parts : List Bytes) (name : Bytes) : Prop extends NamespaceFits parts where
  full : tupleSize parts + name.length ≤ fullTrackNameMax

/-- A full name a decoder of the draft takes. -/
structure NameReads (prof : DraftProfile) (parts : List Bytes) (name : Bytes) : Prop where
  fields : parts.length ≤ namespaceMaxFields
  nonempty : prof.draft16 = true → [] ∉ parts
  size : tupleSize parts + name.length ≤ fullTrackNameMax

theorem pullFullTrackName_decides {parts : List Bytes} {name bs : Bytes}
    (h : pushFullTrackName prof parts name = .ok bs) (pos : Nat) :
    Decides (pullFullTrackName prof) pos bs (NameReads prof parts name) (parts, name) := by
  obtain ⟨head, hhead, h⟩ := except_bind_eq_ok.mp h
  obtain ⟨tail, htail, h⟩ := except_bind_eq_ok.mp h
  obtain ⟨len, hlen, htail⟩ := except_bind_eq_ok.mp htail
  cases htail
  cases h
  have hname : Decides (pullVint prof.vint >>= fun len => do
      let name ← pullSized len "track name"
      let size := tupleSize parts + name.length
      let sizeMax := fullTrackNameMax
      if fullTrackNameMax < size then
        Reader.fail (.violation s!"full track name is {size} bytes (max {sizeMax})")
      else return (parts, name)) (pos + head.length) (len ++ name)
      (¬ fullTrackNameMax < tupleSize parts + name.length ∧ True) (parts, name) := by
    apply (pullVint_reads_of hlen _).bind_decides
    apply (pullSized_reads name _ _).bind_last_decides
    exact Decides.guard (Reads.pure _ (parts, name)).decides
  refine ((pullTuple_decides hhead (by simp)).bind hname).congr ?_
  constructor
  · rintro ⟨⟨hfields, hdraft⟩, hsize, -⟩
    exact ⟨hfields, fun h => (hdraft h).1, by omega⟩
  · intro hname
    have hsize := hname.size
    exact ⟨⟨hname.fields, fun h => ⟨hname.nonempty h, by omega⟩⟩, by omega, trivial⟩

theorem pullFullTrackName_reads {parts : List Bytes} {name bs : Bytes}
    (hfits : FullNameFits parts name) (h : pushFullTrackName prof parts name = .ok bs) (pos : Nat) :
    Reads (pullFullTrackName prof) pos bs (parts, name) :=
  (pullFullTrackName_decides h pos).reads ⟨hfits.fields, fun _ => hfits.nonempty, hfits.full⟩

theorem pushVint_nat {v : Nat} (hv : v < prof.vint.bound) :
    ∃ bs, pushVint prof.vint (v : Int) = .ok bs := by
  refine ⟨prof.vint.enc v, ?_⟩
  rw [pushVint_ok _ (by omega) (by exact_mod_cast hv), Int.toNat_natCast]

theorem pushVint_short (prof : DraftProfile) {v : Nat} (hv : v ≤ fullTrackNameMax) :
    ∃ bs, pushVint prof.vint (v : Int) = .ok bs := by
  have hbound := prof.vint_bound
  unfold fullTrackNameMax at hv
  exact pushVint_nat (by omega)

theorem pushFields_ok (prof : DraftProfile) {parts : List Bytes}
    (h : tupleSize parts ≤ fullTrackNameMax) :
    ∃ bs, pushFields prof parts = .ok bs := by
  induction parts with
  | nil => exact ⟨[], rfl⟩
  | cons part parts ih =>
      have hsum : tupleSize (part :: parts) = part.length + tupleSize parts := by
        simp [tupleSize]
      rw [hsum] at h
      obtain ⟨len, hlen⟩ := pushVint_short prof (v := part.length) (by omega)
      obtain ⟨tail, htail⟩ := ih (by omega)
      refine ⟨len ++ part ++ tail, ?_⟩
      rw [pushFields, hlen, htail]
      rfl

/-- A name that can be read can be written. -/
theorem pushFullTrackName_ok {parts : List Bytes} {name : Bytes} (h : NameReads prof parts name) :
    ∃ bs, pushFullTrackName prof parts name = .ok bs := by
  have hsize := h.size
  have hfields := h.fields
  have hmax : namespaceMaxFields ≤ fullTrackNameMax := by decide
  obtain ⟨n, hn⟩ := pushVint_short prof (le_trans hfields hmax)
  have hparts : tupleSize parts ≤ fullTrackNameMax := by omega
  obtain ⟨fields, hpush⟩ := pushFields_ok prof hparts
  obtain ⟨len, hlen⟩ := pushVint_short prof (v := name.length) (by omega)
  refine ⟨n ++ fields ++ (len ++ name), ?_⟩
  rw [pushFullTrackName, pushTuple, pushSized, hn, hpush, hlen]
  rfl

/-! ## Values -/

/-- A value as it comes back from the wire. -/
def PlainValue.received (prof : DraftProfile) (ptype : Nat) (value : PlainValue) : PlainValue :=
  if ptype = ParamType.authToken then value.receivedToken
  else match value with
    | .locationFilter filter => .locationFilter (filter.received prof)
    | .rangeFilter filter => .rangeFilter filter.received
    | value => value

/-- A value of a parameter the decoder has no objection to. -/
structure PlainValue.Fits (prof : DraftProfile) (ptype : Nat) (value : PlainValue) : Prop where
  locationFilter : ∀ filter, value = .locationFilter filter → filter.validate = .ok filter
  tuple : ∀ parts, value = .tuple parts → NamespaceFits parts
  bytes : ∀ bs, value = .bytes bs → ptype ≠ ParamType.authToken → bs.length ≤ 65535
  token : ptype = ParamType.authToken → ∀ raw, authTokenWrap prof.vint value = .ok raw →
    raw.length ≤ 65535
  bounds : ∀ v, value = .int v → ∀ lo hi, paramBounds prof ptype = some (lo, hi) → lo ≤ v ∧ v ≤ hi
  timeout : ptype = ParamType.deliveryTimeout → prof.zeroDeliveryTimeoutCloses = true →
    value ≠ .int 0

/-- The bytes behind the length, and what they are taken for. -/
theorem pullBytesValue_sized {ptype : Nat} {raw bs : Bytes} {back : PlainValue}
    (hpush : pushSized prof raw = .ok bs) (hlen : raw.length ≤ 65535)
    (hback : ∀ at', Reads (if ptype = ParamType.authToken then
        match authTokenUnwrap prof.vint raw with
        | .ok token => pure token
        | .error e => Reader.fail e
      else pure (PlainValue.bytes raw)) at' [] back)
    {bufEnd pos : Nat} (hend : pos + bs.length ≤ bufEnd) :
    Reads (pullBytesValue prof ptype bufEnd) pos bs back := by
  obtain ⟨len, hsize, hpush⟩ := except_bind_eq_ok.mp hpush
  cases hpush
  rw [List.length_append] at hend
  unfold pullBytesValue
  apply (pullVint_reads_of hsize pos).bind
  apply Reads.tell_bind
  apply Reads.guard (by omega)
  apply Reads.guard (by omega)
  exact (Reads.bytes _ raw _).bind_last (hback _)

theorem pullBytesValue_reads {ptype : Nat} {value : PlainValue} (hfits : value.Fits prof ptype)
    {bs : Bytes} (h : pushBytesValue prof ptype value = .ok bs) {bufEnd pos : Nat}
    (hend : pos + bs.length ≤ bufEnd) :
    Reads (pullBytesValue prof ptype bufEnd) pos bs (value.received prof ptype) := by
  unfold pushBytesValue at h
  unfold PlainValue.received
  by_cases htoken : ptype = ParamType.authToken
  · rw [if_pos htoken] at h ⊢
    obtain ⟨raw, hraw, hpush⟩ := except_bind_eq_ok.mp h
    refine pullBytesValue_sized hpush (hfits.token htoken raw hraw) ?_ hend
    intro at'
    rw [if_pos htoken, authTokenUnwrap_wrap hraw]
    exact Reads.pure _ _
  · rw [if_neg htoken] at h ⊢
    cases value with
    | bytes raw =>
        refine pullBytesValue_sized h (hfits.bytes raw rfl htoken) ?_ hend
        intro at'
        rw [if_neg htoken]
        exact Reads.pure _ _
    | _ => cases h

/-- The decoder of a kind takes what its encoder wrote; the Location of draft 18 is read apart. -/
theorem pullKindValue_reads {kind : ParamKind} {ptype : Nat} {value : PlainValue}
    (hnot : ptype = ParamType.authToken → kind = .bytes) (hloc : kind = .location → prof.draft20 = true)
    (hfits : value.Fits prof ptype) {bs : Bytes}
    (h : pushKindValue prof kind ptype value = .ok bs) {bufEnd pos : Nat}
    (hend : pos + bs.length ≤ bufEnd) (remaining : Nat) :
    Reads (pullKindValue prof kind ptype bufEnd remaining) pos bs (value.received prof ptype) := by
  have hplain : kind ≠ .bytes → ptype ≠ ParamType.authToken := fun hkind htoken => hkind (hnot htoken)
  cases kind with
  | bytes =>
      have hpush : pushBytesValue prof ptype value = .ok bs := by
        cases value <;> exact h
      exact pullBytesValue_reads hfits hpush hend
  | location =>
      cases value with
      | location group object =>
          obtain ⟨head, hhead, h⟩ := except_bind_eq_ok.mp h
          obtain ⟨tail, htail, h⟩ := except_bind_eq_ok.mp h
          cases h
          unfold PlainValue.received
          rw [if_neg (hplain (by simp))]
          unfold pullKindValue
          simp only [hloc rfl, if_true]
          refine Reads.map (a := (group, object)) ?_ _
          exact (pullVint_reads_of hhead pos).bind ((pullVint_reads_of htail _).map _)
      | _ => cases h
  | locationFilter =>
      cases value with
      | locationFilter filter =>
          unfold PlainValue.received
          rw [if_neg (hplain (by simp))]
          exact (LocationFilter.decode_reads (hfits.locationFilter filter rfl) h hend).map _
      | _ => cases h
  | rangeFilter =>
      cases value with
      | rangeFilter filter =>
          unfold PlainValue.received
          rw [if_neg (hplain (by simp))]
          exact (RangeFilter.decode_reads h hend).map _
      | _ => cases h
  | bareTuple =>
      cases value with
      | tuple parts =>
          unfold PlainValue.received
          rw [if_neg (hplain (by simp))]
          exact (pullTuple_reads (hfits.tuple parts rfl) h (by simpa using hend)).map _
      | _ => cases h
  | uint8 =>
      cases value with
      | int v =>
          unfold PlainValue.received
          rw [if_neg (hplain (by simp))]
          exact (pullUint8_reads_of h pos).map _
      | _ => cases h
  | varint =>
      cases value with
      | int v =>
          unfold PlainValue.received
          rw [if_neg (hplain (by simp))]
          exact (pullVint_reads_of h pos).map _
      | _ => cases h
  | tuple =>
      cases value with
      | tuple parts =>
          obtain ⟨inner, hinner, h⟩ := except_bind_eq_ok.mp h
          obtain ⟨len, hsize, h⟩ := except_bind_eq_ok.mp h
          cases h
          rw [List.length_append] at hend
          unfold PlainValue.received
          rw [if_neg (hplain (by simp))]
          unfold pullKindValue
          apply (pullVint_reads_of hsize pos).bind
          apply Reads.tell_bind
          apply Reads.guard (by omega)
          apply (pullTuple_reads (hfits.tuple parts rfl) hinner (by simp)).bind_last
          apply Reads.tell_bind
          exact Reads.guard (by simp) (Reads.pure _ _)
      | _ => cases h
  | fill => cases value <;> cases h

theorem paramKind_authToken : paramKind prof ParamType.authToken = some .bytes := by
  unfold paramKind
  rw [if_neg (by simp [ParamType.authToken])]
  split_ifs <;> rfl

/-- From draft 18 on the type says how a value is read. -/
theorem pullPlainValue_reads (hdraft : prof.draft18 = true) {ptype : Nat}
    (hloc : paramKind prof ptype = some .location → prof.draft20 = true) {value : PlainValue}
    (hfits : value.Fits prof ptype) {bs : Bytes} (h : pushPlainValue prof ptype value = .ok bs)
    {bufEnd pos : Nat} (hend : pos + bs.length ≤ bufEnd) (remaining : Nat) :
    Reads (pullPlainValue prof bufEnd ptype remaining) pos bs (value.received prof ptype) := by
  unfold pushPlainValue at h
  unfold pullPlainValue
  rw [if_pos hdraft] at h ⊢
  cases hkind : paramKind prof ptype with
  | none => simp [hkind] at h
  | some kind =>
      simp only [hkind] at h ⊢
      apply pullKindValue_reads _ _ hfits h hend
      · rintro rfl
        rw [paramKind_authToken] at hkind
        exact (Option.some.inj hkind).symm
      · rintro rfl
        exact hloc hkind

theorem pushBytesValue_int (ptype v : Nat) : ∀ bs, pushBytesValue prof ptype (.int v) ≠ .ok bs := by
  intro bs h
  unfold pushBytesValue at h
  split at h <;> cases h

/-- An integer is read in every draft, whatever its bounds. -/
theorem int_reads {ptype v : Nat} {bs : Bytes} (h : pushPlainValue prof ptype (.int v) = .ok bs)
    (bufEnd remaining pos : Nat) :
    Reads (pullPlainValue prof bufEnd ptype remaining) pos bs (.int v) := by
  unfold pushPlainValue at h
  unfold pullPlainValue
  by_cases hdraft : prof.draft18
  · rw [if_pos hdraft] at h ⊢
    cases hkind : paramKind prof ptype with
    | none => simp [hkind] at h
    | some kind =>
        simp only [hkind] at h ⊢
        cases kind with
        | uint8 => exact (pullUint8_reads_of h pos).map _
        | varint => exact (pullVint_reads_of h pos).map _
        | bytes => exact absurd h (pushBytesValue_int ptype v bs)
        | _ => cases h
  · rw [if_neg hdraft] at h ⊢
    unfold pushParityValue at h
    unfold pullParityValue
    split at h
    · cases h
    · next hloc =>
        rw [if_neg hloc]
        split at h
        · exact absurd h (pushBytesValue_int ptype v bs)
        · next hodd =>
            rw [if_neg hodd]
            simp only at h
            split at h
            · next huint =>
                rw [if_pos huint]
                exact (pullUint8_reads_of h pos).map _
            · next huint =>
                rw [if_neg huint]
                exact (pullVint_reads_of h pos).map _

/-! ## Checks -/

theorem PlainValue.scalar_received (ptype : Nat) (value : PlainValue) :
    (value.received prof ptype).scalar = value.scalar := by
  unfold PlainValue.received
  split_ifs
  · cases value with
    | tokenRef ref =>
        obtain ⟨aliasType, tokenAlias, tokenType, value⟩ := ref
        cases aliasType <;> rfl
    | _ => rfl
  · cases value <;> rfl

theorem PlainValue.Fits.check {ptype : Nat} {value : PlainValue} (hfits : value.Fits prof ptype)
    (scope : Option ParamScope) : checkParamValue prof scope ptype value.scalar = .ok () := by
  have hint : ∀ v, value.scalar = some v → value = .int v := by
    intro v hv
    cases value <;> cases hv
    rfl
  unfold checkParamValue
  rw [if_neg]
  · cases hbounds : paramBounds prof ptype with
    | none => rfl
    | some range =>
        cases hscalar : value.scalar with
        | none => rfl
        | some v =>
            have hin := hfits.bounds v (hint v hscalar) range.1 range.2 hbounds
            simp only
            rw [if_pos hin]
  · rintro ⟨_, htype, hcloses, hzero⟩
    exact hfits.timeout htype hcloses (hint 0 hzero)

theorem paramKind_of_push (hdraft : prof.draft18 = true) {ptype : Nat} {value : PlainValue}
    {bs : Bytes} (h : pushPlainValue prof ptype value = .ok bs) : paramKind prof ptype ≠ none := by
  intro hnone
  unfold pushPlainValue at h
  simp [hdraft, hnone] at h

end

end AioMoqt.Messages
