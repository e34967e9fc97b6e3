import AioMoqt.Messages.Control
import AioMoqt.Messages.Proofs.FramedMessages
import AioMoqt.Messages.Proofs.KvpGrammar

/-!
# Track Properties that are cut

Track Properties run to the end of their message.  Where `_tolerate_trailing_extensions` is set, a
pair that the message cuts ends them and what was read before it counts.  That a pair is cut is
noticed as a short read, so what stands behind the message may decide.
-/

namespace AioMoqt.Messages

open AioMoqt.Lib AioMoqt.Lib.BigEndian AioMoqt.Lib.Reader

/-! ## Messages with Track Properties -/

/-- A failure other than that of a block that overruns its message. -/
def MoqtError.InBlock (e : MoqtError) : Prop := ∀ reason, e ≠ .malformedKvp reason

instance (priority := low) judged_inBlock {α : Type} {x : Except MoqtError α}
    [hx : Fails MoqtError.Judged x] : Fails MoqtError.InBlock x where
  fails e he := by
    rcases hx.fails e he with rfl | ⟨reason, rfl⟩
    · nofun
    · nofun

/-- A message that ends with Track Properties: what stands before them, and what is made of
both. -/
structure TrailingMessage (stop : Nat) where
  Head : Type
  head : Reader MoqtError Head
  finish : Head → Option KeyValuePairs → Except MoqtError ControlMessage
  framed : Framed MoqtError.Fatal stop head
  inBlock : ∀ h exts, Fails MoqtError.InBlock (finish h exts)

/-- `tolerate` for `_tolerate_trailing_extensions`. -/
def TrailingMessage.read {stop : Nat} (msg : TrailingMessage stop) (prof : DraftProfile)
    (tolerate : Bool) : Reader MoqtError ControlMessage := do
  let h ← msg.head
  let exts ← extensionsDecodeTo prof.vint stop true true tolerate
  Reader.ofExcept (msg.finish h exts)

section Checks

variable (prof : DraftProfile)

/-- The checks of `pullTrackExtensions`. -/
def checkTrackExtensions (exts : Option KeyValuePairs) : Except MoqtError Unit :=
  if prof.trackProperties then checkTrackProperties prof exts else .ok ()

instance checkTrackExtensions_fails (exts : Option KeyValuePairs) :
    Fails MoqtError.Judged (checkTrackExtensions prof exts) := by
  unfold checkTrackExtensions
  infer_instance

end Checks

section Classes

variable (prof : DraftProfile) (stop : Nat)

/-- PUBLISH. -/
def trailingPublish : TrailingMessage stop where
  Head := Nat × (List Bytes × Bytes) × Nat × Params × Option (Nat × Nat)
  head := do
    let requestId ← pullVint prof.vint
    let name ← pullFullTrackName prof
    let trackAlias ← pullVint prof.vint
    let params ← deserializeParams prof stop (some (.message .publish))
    let largest ← Reader.ofExcept params.largest?
    return (requestId, name, trackAlias, params, largest)
  finish := fun (requestId, name, trackAlias, params, largest) exts => do
    let _ ← checkTrackExtensions prof exts
    let groupOrder ← extensionsOrder exts
    return .publish
      { requestId, trackNamespace := name.1, trackName := name.2, trackAlias
        groupOrder := some groupOrder
        contentExists := some (if largest.isSome then 1 else 0)
        largestGroupId := largest.map Prod.fst, largestObjectId := largest.map Prod.snd
        forward := params.int? ParamType.forward
        parameters := (params.erase ParamType.forward).erase ParamType.largestObject
        trackExtensions := withoutOrder exts }
  framed := inferInstance
  inBlock := fun _ _ => inferInstance

/-- SUBSCRIBE_OK. -/
def trailingSubscribeOk : TrailingMessage stop where
  Head := Option Nat × Nat × Params × Option (Nat × Nat)
  head := do
    let requestId ← pullReplyId prof
    let trackAlias ← pullVint prof.vint
    let params ← deserializeParams prof stop (some (.message .subscribeOk))
    let largest ← Reader.ofExcept params.largest?
    return (requestId, trackAlias, params, largest)
  finish := fun (requestId, trackAlias, params, largest) exts => do
    let _ ← checkTrackExtensions prof exts
    let groupOrder ← extensionsOrder exts
    return .subscribeOk
      { requestId, trackAlias, expires := params.int? ParamType.expires
        groupOrder := some groupOrder
        contentExists := some (if largest.isSome then 1 else 0)
        largestGroupId := largest.map Prod.fst, largestObjectId := largest.map Prod.snd
        parameters := (params.erase ParamType.expires).erase ParamType.largestObject
        trackExtensions := withoutOrder exts }
  framed := inferInstance
  inBlock := fun _ _ => inferInstance

/-- FETCH_OK. -/
def trailingFetchOk : TrailingMessage stop where
  Head := Option Nat × Nat × Nat × Nat × Params
  head := do
    let requestId ← pullReplyId prof
    let endOfTrack ← pullUint8
    let group ← pullVint prof.vint
    let object ← pullVint prof.vint
    let params ← deserializeParams prof stop (some (.message .fetchOk))
    return (requestId, endOfTrack, group, object, params)
  finish := fun (requestId, endOfTrack, group, object, params) exts => do
    let _ ← checkTrackExtensions prof exts
    return .fetchOk
      { requestId, groupOrder := params.int? ParamType.groupOrder, endOfTrack
        largestGroupId := group
        largestObjectId := if prof.fetchLocationFilter then object + 1 else object
        parameters := params.erase ParamType.groupOrder, trackExtensions := exts }
  framed := inferInstance
  inBlock := fun _ _ => inferInstance

/-- A REQUEST_OK that answers TRACK_STATUS. -/
def trailingRequestOk : TrailingMessage stop where
  Head := Option Nat × Params
  head := do
    let requestId ← pullReplyId prof
    let params ← deserializeParams prof stop (some (.message .requestOk))
    return (requestId, params)
  finish := fun (requestId, parameters) exts => do
    let _ ← checkTrackProperties prof exts
    return .requestOk { requestId, parameters, trackProperties := exts }
  framed := inferInstance
  inBlock := fun _ _ => inferInstance

/-- The control messages of a draft that end with Track Properties. -/
def trailingMessage : MessageClass → Option (TrailingMessage stop)
  | .publish => if prof.draft16 then some (trailingPublish prof stop) else none
  | .subscribeOk => if prof.draft16 then some (trailingSubscribeOk prof stop) else none
  | .fetchOk => if prof.draft16 then some (trailingFetchOk prof stop) else none
  | .requestOk => if prof.draft18 then some (trailingRequestOk prof stop) else none
  | _ => none

end Classes

theorem ofExcept_bind {α β : Type} (x : Except MoqtError α) (f : α → Except MoqtError β) :
    Reader.ofExcept (x >>= f) = Reader.ofExcept x >>= fun a => Reader.ofExcept (f a) := by
  funext cur
  cases x <;> rfl

theorem ofExcept_pure {α : Type} (a : α) :
    (Reader.ofExcept (pure a) : Reader MoqtError α) = pure a := rfl

/-- Behind the end of the message there are no pairs. -/
theorem extensionsDecodeTo_end (code : PrefixCode) {stop : Nat} {cur : Cursor} (tolerate : Bool)
    (h : stop ≤ cur.pos) : extensionsDecodeTo code stop true true tolerate cur = .ok (none, cur) := by
  unfold extensionsDecodeTo
  simp only [Reader.tell, bind, StateT.bind, Except.bind]
  split_ifs
  · rfl
  · simp only [StateT.bind, pullKvps_end _ _ _ h]
    rfl

theorem pullProperties_eq (prof : DraftProfile) {stop : Nat} (hdraft : prof.draft18 = true) :
    RequestOk.pullProperties prof stop = do
      let exts ← extensionsDecodeTo prof.vint stop true true false
      let _ ← Reader.ofExcept (checkTrackProperties prof exts)
      return exts := by
  funext cur
  unfold RequestOk.pullProperties
  by_cases hpos : cur.pos < stop
  · have hcond : prof.draft18 = true ∧ cur.pos < stop := ⟨hdraft, hpos⟩
    simp only [Reader.tell, bind, StateT.bind, Except.bind]
    rw [if_pos hcond]
    rfl
  · have hcond : ¬ (prof.draft18 = true ∧ cur.pos < stop) := fun h => hpos h.2
    simp only [Reader.tell, bind, StateT.bind, Except.bind,
      extensionsDecodeTo_end prof.vint false (Nat.le_of_not_lt hpos)]
    rw [if_neg hcond]
    rfl

/-- These are the codecs of the classes, which the flag leaves alone up to the Track Properties. -/
theorem deserialize_trailing {prof : DraftProfile} {stop : Nat} {cls : MessageClass}
    {msg : TrailingMessage stop} (h : trailingMessage prof stop cls = some msg) :
    ControlMessage.deserialize prof stop cls = msg.read prof false := by
  cases cls with
  | publish =>
      simp only [trailingMessage] at h
      split_ifs at h with hdraft
      cases h
      simp only [ControlMessage.deserialize, Publish.deserialize, hdraft, if_true,
        TrailingMessage.read, trailingPublish, pullTrackExtensions, map_eq_pure_bind, bind_assoc,
        pure_bind, ofExcept_bind, ofExcept_pure, checkTrackExtensions]
  | subscribeOk =>
      simp only [trailingMessage] at h
      split_ifs at h with hdraft
      cases h
      simp only [ControlMessage.deserialize, SubscribeOk.deserialize, hdraft, if_true,
        TrailingMessage.read, trailingSubscribeOk, pullTrackExtensions, map_eq_pure_bind, bind_assoc,
        pure_bind, ofExcept_bind, ofExcept_pure, checkTrackExtensions]
  | fetchOk =>
      simp only [trailingMessage] at h
      split_ifs at h with hdraft
      cases h
      simp only [ControlMessage.deserialize, FetchOk.deserialize, hdraft, if_true,
        TrailingMessage.read, trailingFetchOk, pullTrackExtensions, map_eq_pure_bind, bind_assoc,
        pure_bind, ofExcept_bind, ofExcept_pure, checkTrackExtensions]
  | requestOk =>
      simp only [trailingMessage] at h
      split_ifs at h with hdraft
      cases h
      simp only [ControlMessage.deserialize, RequestOk.deserialize, pullProperties_eq prof hdraft,
        TrailingMessage.read, trailingRequestOk, map_eq_pure_bind, bind_assoc, pure_bind,
        ofExcept_bind, ofExcept_pure]
  | _ => cases h

/-- `cls.deserialize` under either setting of the flag. -/
def ControlMessage.deserializeWith (prof : DraftProfile) (stop : Nat) (tolerate : Bool)
    (cls : MessageClass) : Reader MoqtError ControlMessage :=
  match trailingMessage prof stop cls with
  | some msg => msg.read prof tolerate
  | none => ControlMessage.deserialize prof stop cls

theorem deserializeWith_false (prof : DraftProfile) (stop : Nat) (cls : MessageClass) :
    ControlMessage.deserializeWith prof stop false cls = ControlMessage.deserialize prof stop cls := by
  unfold ControlMessage.deserializeWith
  split
  · rename_i msg hmsg
    exact (deserialize_trailing hmsg).symm
  · rfl

/-! ## A pair that is cut -/

section Cut

variable (code : PrefixCode)

/-- Something is there, and does not begin with a whole pair. -/
structure CutPair (prev : Nat) (cut : Bytes) : Prop where
  intro ::
  nonempty : cut ≠ []
  short : ¬ ∃ type body rest extId value, cut = type ++ body ++ rest ∧
    SpellsType code true prev type extId ∧ SpellsValue code extId body value

/-- The type is whole, and either lies outside the type space or announces a byte string: one whose
length is known, or can only become one that is allowed. -/
def Determined (prev : Nat) (cut : Bytes) : Prop :=
  ∃ type step rest, cut = type ++ rest ∧ code.Spells type step ∧
    (kvpTypeMax < step + prev ∨ (step + prev) % 2 = 1 ∧
      (code.dec rest = none → ∀ more n, code.Spells (rest ++ more) n → n ≤ kvpValueMax))

/-- How trailing Track Properties are read with the flag set. -/
def trailingMode : KvpMode :=
  { withLength := false, delta := true, lenient := true, tolerate := true }

variable {code}

/-- What is raised for a type outside the type space. -/
def deltaOverflow (extId : Nat) : String :=
  s!"KVP Delta Type overflows the Type space: {extId} > 2^64-1"

/-- What is raised for a value that is too long. -/
def lengthOver (len : Nat) : String := s!"KVP value length {len} over 2^16-1"

/-- A number between two texts can be told. -/
theorem repr_between_injective (front back : String) {m n : Nat}
    (h : front ++ m.repr ++ back = front ++ n.repr ++ back) : m = n := by
  have hlist := congrArg String.toList h
  simp only [String.toList_append] at hlist
  have hdigits : m.repr.toList = n.repr.toList :=
    List.append_cancel_left (List.append_cancel_right hlist)
  calc m = Nat.ofDigitChars 10 m.repr.toList 0 := by
        rw [Nat.toList_repr, Nat.ofDigitChars_ten_toDigits]
    _ = Nat.ofDigitChars 10 n.repr.toList 0 := by rw [hdigits]
    _ = n := by rw [Nat.toList_repr, Nat.ofDigitChars_ten_toDigits]

theorem deltaOverflow_injective {m n : Nat} (h : deltaOverflow m = deltaOverflow n) : m = n :=
  repr_between_injective "KVP Delta Type overflows the Type space: " " > 2^64-1" h

theorem lengthOver_injective {m n : Nat} (h : lengthOver m = lengthOver n) : m = n :=
  repr_between_injective "KVP value length " " over 2^16-1" h

/-- A pair behind its type. -/
theorem pullKvp_typed {type : Bytes} {step : Nat} (htype : code.Spells type step)
    (stop prev pos : Nat) (rest : Bytes) :
    pullKvp code trailingMode stop prev ⟨pos, type ++ rest⟩ =
      if kvpTypeMax < step + prev then .error (.violation (deltaOverflow (step + prev)))
      else (pullKvpValue code trailingMode stop (step + prev) ⟨pos + type.length, rest⟩).map
        fun read => ((step + prev, read.1), read.2) := by
  unfold pullKvp
  rw [(spells_reads htype pos).bind_apply]
  simp only [trailingMode, if_true, true_and]
  split_ifs with hover
  · rfl
  · simp only [bind, StateT.bind, Except.bind]
    cases pullKvpValue code _ stop (step + prev) ⟨pos + type.length, rest⟩ <;> rfl

/-- A byte string behind its length. -/
theorem pullKvpValue_sized {extId n : Nat} {len : Bytes} (hodd : extId % 2 = 1)
    (hlen : code.Spells len n) (stop pos : Nat) (rest : Bytes) :
    pullKvpValue code trailingMode stop extId ⟨pos, len ++ rest⟩ =
      if kvpValueMax < n then .error (.violation (lengthOver n))
      else if stop < pos + len.length + n then .error (.underflow (pos + len.length))
      else (pullBytes n ⟨pos + len.length, rest⟩).map fun read => (.bytes read.1, read.2) := by
  unfold pullKvpValue
  rw [if_neg (by omega)]
  have hread : pullKvpBytes code trailingMode stop extId ⟨pos, len ++ rest⟩ =
      if kvpValueMax < n then .error (.violation (lengthOver n))
      else if stop < pos + len.length + n then .error (.underflow (pos + len.length))
      else pullBytes n ⟨pos + len.length, rest⟩ := by
    unfold pullKvpBytes
    rw [(spells_reads hlen pos).bind_apply]
    simp only [bind, StateT.bind, Except.bind, Reader.tell, trailingMode]
    split_ifs with hmax hstop hmode
    · rfl
    · rcases hmode with hmode | hmode
      · cases hmode
      · exact absurd trivial hmode
    · rfl
    · rfl
  simp only [bind, StateT.bind, Except.bind, hread]
  split_ifs
  · rfl
  · rfl
  · cases pullBytes n ⟨pos + len.length, rest⟩ <;> rfl

/-- A pair whose type is cut comes short. -/
theorem pullKvp_cut_type {stop prev pos : Nat} {bytes : Bytes} (h : code.dec bytes = none) :
    pullKvp code trailingMode stop prev ⟨pos, bytes⟩ = .error (.underflow pos) := by
  have hint : pullVint code ⟨pos, bytes⟩ = .error (.underflow pos) :=
    Reader.int_eq_error.mpr ⟨h, rfl⟩
  exact Reader.bind_eq_error.mpr (Or.inl hint)

/-- A pair whose value begins with an integer that is cut comes short. -/
theorem pullKvp_cut_value {type rest : Bytes} {step stop prev pos : Nat}
    (htype : code.Spells type step) (hspace : step + prev ≤ kvpTypeMax)
    (h : code.dec rest = none) :
    pullKvp code trailingMode stop prev ⟨pos, type ++ rest⟩ =
      .error (.underflow (pos + type.length)) := by
  have hint : pullVint code ⟨pos + type.length, rest⟩ = .error (.underflow (pos + type.length)) :=
    Reader.int_eq_error.mpr ⟨h, rfl⟩
  have hvalue : pullKvpValue code trailingMode stop (step + prev) ⟨pos + type.length, rest⟩ =
      .error (.underflow (pos + type.length)) := by
    unfold pullKvpValue
    split
    · exact Reader.bind_eq_error.mpr (Or.inl hint)
    · apply Reader.bind_eq_error.mpr
      left
      exact Reader.bind_eq_error.mpr (Or.inl hint)
  rw [pullKvp_typed htype, if_neg (by omega), hvalue]
  rfl

/-- A pair with an integer. -/
theorem pullKvp_even {type value : Bytes} {step v prev : Nat} (htype : code.Spells type step)
    (hspace : step + prev ≤ kvpTypeMax) (heven : (step + prev) % 2 = 0)
    (hvalue : code.Spells value v) (stop pos : Nat) :
    pullKvp code trailingMode stop prev ⟨pos, type ++ value⟩ =
      .ok ((step + prev, .int v), ⟨pos + type.length + value.length, []⟩) := by
  have hread := spells_reads hvalue (pos + type.length) []
  rw [List.append_nil] at hread
  rw [pullKvp_typed htype, if_neg (by omega)]
  unfold pullKvpValue
  rw [if_pos heven]
  simp only [bind, StateT.bind, Except.bind, hread]
  rfl

/-- What a read finds that reached behind the message. -/
theorem short_of_past (hlocal : code.Local) {bytes following : Bytes} {v : Nat} {after : Bytes}
    (hnone : code.dec bytes = none) (h : code.dec (bytes ++ following) = some (v, after)) :
    ∃ more, following = more ++ after ∧ code.Spells (bytes ++ more) v ∧ 0 < more.length := by
  have hpast := hlocal.dec_past hnone h
  obtain ⟨used, hused, hspells⟩ := hlocal.dec_eq_some.mp h
  have hsuffix : after <:+ following :=
    List.suffix_of_suffix_length_le ⟨used, hused.symm⟩ (List.suffix_append bytes following)
      (by omega)
  obtain ⟨more, rfl⟩ := hsuffix
  rw [← List.append_assoc] at hused
  have hsame : bytes ++ more = used := List.append_cancel_right hused
  rw [← hsame] at hspells
  refine ⟨more, rfl, hspells, ?_⟩
  rw [List.length_append] at hpast
  omega

/-- A pair that is determined comes short or fails alike, whatever stands behind it. -/
theorem Determined.pullKvp (hlocal : code.Local) {prev pos stop : Nat} {cut : Bytes}
    (h : Determined code prev cut) (hcut : CutPair code prev cut) (hstop : pos + cut.length = stop) :
    (∀ following, ∃ k, pullKvp code trailingMode stop prev ⟨pos, cut ++ following⟩ =
      .error (.underflow k)) ∨
      ∃ reason, ∀ following, pullKvp code trailingMode stop prev ⟨pos, cut ++ following⟩ =
        .error (.violation reason) := by
  obtain ⟨type, step, rest, rfl, htype, hcase⟩ := h
  rw [List.length_append] at hstop
  simp only [List.append_assoc, pullKvp_typed htype]
  by_cases hover : kvpTypeMax < step + prev
  · right
    refine ⟨deltaOverflow (step + prev), ?_⟩
    intro following
    rw [if_pos hover]
  · obtain ⟨hodd, hlengths⟩ := hcase.resolve_left hover
    simp only [if_neg hover]
    cases hdec : code.dec rest with
    | none =>
        left
        intro following
        cases hread : code.dec (rest ++ following) with
        | none =>
            have hint : pullVint code ⟨pos + type.length, rest ++ following⟩ =
                .error (.underflow (pos + type.length)) := Reader.int_eq_error.mpr ⟨hread, rfl⟩
            refine ⟨pos + type.length, ?_⟩
            have hvalue : pullKvpValue code trailingMode stop (step + prev)
                ⟨pos + type.length, rest ++ following⟩ = .error (.underflow (pos + type.length)) := by
              unfold pullKvpValue
              rw [if_neg (by omega)]
              apply Reader.bind_eq_error.mpr
              left
              exact Reader.bind_eq_error.mpr (Or.inl hint)
            rw [hvalue]
            rfl
        | some read =>
            obtain ⟨n, after⟩ := read
            obtain ⟨more, rfl, hspells, hmore⟩ := short_of_past hlocal hdec hread
            have hmax := hlengths hdec more n hspells
            have hlength : (rest ++ more).length = rest.length + more.length := List.length_append
            rw [← List.append_assoc, pullKvpValue_sized hodd hspells, if_neg (by omega),
              if_pos (by omega)]
            exact ⟨_, rfl⟩
    | some read =>
        obtain ⟨n, value⟩ := read
        obtain ⟨len, rfl, hspells⟩ := hlocal.dec_eq_some.mp hdec
        simp only [List.append_assoc, pullKvpValue_sized hodd hspells]
        by_cases hmax : kvpValueMax < n
        · right
          refine ⟨lengthOver n, ?_⟩
          intro following
          rw [if_pos hmax]
          rfl
        · left
          intro following
          have hshort : value.length < n := by
            by_contra hlong
            apply hcut.short
            have hlength : (value.take n).length = n := by
              rw [List.length_take]
              omega
            refine ⟨type, len ++ value.take n, value.drop n, step + prev, .bytes (value.take n), ?_,
              ⟨⟨step, htype, rfl⟩, ?_⟩, ?_⟩
            · simp only [List.append_assoc, List.take_append_drop]
            · intro _
              omega
            · apply SpellsValue.bytes hodd
              · rwa [hlength]
              · omega
          rw [List.length_append] at hstop
          rw [if_neg hmax, if_pos (by omega)]
          exact ⟨_, rfl⟩

/-- Where nothing is announced yet, or a length over the limit, there are two of those. -/
theorem two_over (hopen : code.Open) (hbound : 65538 ≤ code.bound) {rest more : Bytes} {n : Nat}
    (hnone : code.dec rest = none) (hn : code.Spells (rest ++ more) n) (hover : kvpValueMax < n) :
    ∃ more' n' more'' n'', n' ≠ n'' ∧ kvpValueMax < n' ∧ kvpValueMax < n'' ∧
      code.Spells (rest ++ more') n' ∧ code.Spells (rest ++ more'') n'' := by
  have hmax : kvpValueMax = 65535 := rfl
  by_cases hrest : rest = []
  · subst hrest
    refine ⟨code.enc 65536, 65536, code.enc 65537, 65537, by omega, by omega, by omega, ?_, ?_⟩
    · exact code.spells_enc (by omega)
    · exact code.spells_enc (by omega)
  · obtain ⟨front, last, base, hvalue, hlast, hfree⟩ := hopen.completion hrest hnone hn
    have hzero : (0 : UInt8).toNat = 0 := rfl
    have hone : (1 : UInt8).toNat = 1 := rfl
    refine ⟨_, _, _, _, ?_, ?_, ?_, hfree 0, hfree 1⟩
    · omega
    · omega
    · omega

/-- A pair that nothing determines fails in two ways, or comes short where nothing follows and may
end behind the message. -/
theorem undetermined_pullKvp (hlocal : code.Local) (hopen : code.Open) (hbound : 65538 ≤ code.bound)
    {prev pos stop : Nat} {cut : Bytes} (h : ¬ Determined code prev cut)
    (hcut : CutPair code prev cut) (hstop : pos + cut.length = stop) :
    ((∃ k, pullKvp code trailingMode stop prev ⟨pos, cut⟩ = .error (.underflow k)) ∧
      ∃ following pair next, stop < next.pos ∧
        pullKvp code trailingMode stop prev ⟨pos, cut ++ following⟩ = .ok (pair, next)) ∨
    ∃ following following' reason reason', reason ≠ reason' ∧
      pullKvp code trailingMode stop prev ⟨pos, cut ++ following⟩ = .error (.violation reason) ∧
      pullKvp code trailingMode stop prev ⟨pos, cut ++ following'⟩ = .error (.violation reason') := by
  cases hdec : code.dec cut with
  | none =>
      -- the last byte of the type can make it even, or two of them take it out of the type space
      obtain ⟨more, v, hv⟩ := hopen.completes hcut.nonempty hdec
      obtain ⟨front, last, base, -, -, hfree⟩ := hopen.completion hcut.nonempty hdec hv
      have hzero : code.Spells (code.enc 0) 0 := code.spells_enc (by omega)
      have hends : ∀ b : UInt8, base * 256 + b.toNat + prev ≤ kvpTypeMax →
          (base * 256 + b.toNat + prev) % 2 = 0 →
          ∃ following pair next, stop < next.pos ∧
            pullKvp code trailingMode stop prev ⟨pos, cut ++ following⟩ = .ok (pair, next) := by
        intro b hspace heven
        have hread := pullKvp_even (hfree b) hspace heven hzero stop pos
        rw [List.append_assoc] at hread
        refine ⟨_, _, _, ?_, hread⟩
        have hlength := hzero.length_pos
        simp only [List.length_append]
        omega
      have hover : ∀ b : UInt8, kvpTypeMax < base * 256 + b.toNat + prev →
          pullKvp code trailingMode stop prev ⟨pos, cut ++ (front ++ [b])⟩ =
            .error (.violation (deltaOverflow (base * 256 + b.toNat + prev))) := by
        intro b hspace
        have hread := pullKvp_typed (hfree b) stop prev pos []
        rwa [List.append_nil, if_pos hspace] at hread
      have hbyte0 : (0 : UInt8).toNat = 0 := rfl
      have hbyte1 : (1 : UInt8).toNat = 1 := rfl
      have hbyte2 : (2 : UInt8).toNat = 2 := rfl
      by_cases hspace : base * 256 + 1 + prev ≤ kvpTypeMax
      · left
        refine ⟨⟨pos, pullKvp_cut_type hdec⟩, ?_⟩
        by_cases heven : (base * 256 + prev) % 2 = 0
        · apply hends 0
          · omega
          · rw [hbyte0, Nat.add_zero]
            exact heven
        · exact hends 1 (by omega) (by omega)
      · right
        have hover1 := hover 1 (by omega)
        have hover2 := hover 2 (by omega)
        refine ⟨_, _, _, _, ?_, hover1, hover2⟩
        intro hsame
        have hnumber := deltaOverflow_injective hsame
        omega
  | some read =>
      obtain ⟨step, rest⟩ := read
      obtain ⟨type, rfl, htype⟩ := hlocal.dec_eq_some.mp hdec
      rw [List.length_append] at hstop
      have hspace : step + prev ≤ kvpTypeMax := by
        by_contra hover
        exact h ⟨type, step, rest, rfl, htype, Or.inl (by omega)⟩
      have htyped : SpellsType code true prev type (step + prev) :=
        ⟨⟨step, htype, rfl⟩, fun _ => hspace⟩
      rcases Nat.mod_two_eq_zero_or_one (step + prev) with heven | hodd
      · left
        have hnone : code.dec rest = none := by
          cases hrest : code.dec rest with
          | none => rfl
          | some value =>
              exfalso
              obtain ⟨v, tail⟩ := value
              obtain ⟨body, rfl, hbody⟩ := hlocal.dec_eq_some.mp hrest
              exact hcut.short ⟨type, body, tail, step + prev, .int v, by simp, htyped,
                .int heven hbody⟩
        obtain ⟨more, v, hv⟩ : ∃ more v, code.Spells (rest ++ more) v := by
          by_cases hnil : rest = []
          · subst hnil
            exact ⟨code.enc 0, 0, code.spells_enc (by omega)⟩
          · exact hopen.completes hnil hnone
        have hmore : more ≠ [] := by
          rintro rfl
          rw [List.append_nil, PrefixCode.Spells, hnone] at hv
          cases hv
        have hread := pullKvp_even htype hspace heven hv stop pos
        rw [← List.append_assoc] at hread
        refine ⟨⟨_, pullKvp_cut_value htype hspace hnone⟩, more, _, _, ?_, hread⟩
        have hpos := List.length_pos_iff.mpr hmore
        simp only [List.length_append]
        omega
      · right
        have hlengths : ¬ (code.dec rest = none →
            ∀ more n, code.Spells (rest ++ more) n → n ≤ kvpValueMax) :=
          fun hall => h ⟨type, step, rest, rfl, htype, Or.inr ⟨hodd, hall⟩⟩
        push Not at hlengths
        obtain ⟨hnone, more, n, hn, hmax⟩ := hlengths
        obtain ⟨more', n', more'', n'', hne, hn', hn'', hspells', hspells''⟩ :=
          two_over hopen hbound hnone hn hmax
        have hfails : ∀ bytes v, code.Spells (rest ++ bytes) v → kvpValueMax < v →
            pullKvp code trailingMode stop prev ⟨pos, type ++ rest ++ bytes⟩ =
              .error (.violation (lengthOver v)) := by
          intro bytes v hv hover
          have hsized := pullKvpValue_sized hodd hv stop (pos + type.length) []
          rw [List.append_nil, if_pos hover] at hsized
          rw [List.append_assoc, pullKvp_typed htype, if_neg (by omega), hsized]
          rfl
        refine ⟨_, _, _, _, ?_, hfails more' n' hspells' hn', hfails more'' n'' hspells'' hn''⟩
        intro hsame
        exact hne (lengthOver_injective hsame)

/-! ## The block that is cut -/

/-- A pair that comes short ends the block, and the message with it. -/
theorem pullKvps_short {stop prev k : Nat} {cut following : Bytes} {pos : Nat} (fuel : Nat)
    (kvps : KeyValuePairs) (hcut : cut ≠ []) (hstop : pos + cut.length = stop)
    (h : pullKvp code trailingMode stop prev ⟨pos, cut ++ following⟩ = .error (.underflow k)) :
    pullKvps code trailingMode stop (fuel + 1) prev kvps ⟨pos, cut ++ following⟩ =
      .ok (kvps, ⟨stop, following⟩) := by
  have hpos := List.length_pos_iff.mpr hcut
  have hdrop : (cut ++ following).drop (stop - pos) = following :=
    List.drop_left' (by omega)
  have hopen : ¬ stop ≤ pos := by omega
  simp only [pullKvps, h, if_neg hopen, hdrop]
  rfl

theorem pullKvps_violation {stop prev : Nat} {cur : Cursor} {reason : String} (fuel : Nat)
    (kvps : KeyValuePairs) (hopen : cur.pos < stop)
    (h : pullKvp code trailingMode stop prev cur = .error (.violation reason)) :
    pullKvps code trailingMode stop (fuel + 1) prev kvps cur = .error (.violation reason) := by
  simp only [pullKvps, h, if_neg (Nat.not_le_of_gt hopen)]

/-- The whole pairs of the block, up to the one that is cut. -/
theorem extensionsDecodeTo_over {stop pos : Nat} {done cut : Bytes} {pairs : List (Nat × KvpValue)}
    (hpairs : SpellsPairs code true 0 done pairs) (hcut : cut ≠ [])
    (hstop : pos + (done ++ cut).length = stop) (following : Bytes) :
    ∃ left, extensionsDecodeTo code stop true true true ⟨pos, done ++ (cut ++ following)⟩ =
      (pullKvps code trailingMode stop (left + 1) (lastType 0 pairs) (collect pairs)
        ⟨pos + done.length, cut ++ following⟩).map fun read => (read.1.orNone, read.2) := by
  have hpos := List.length_pos_iff.mpr hcut
  rw [List.length_append] at hstop
  have hmode : SpellsPairs code trailingMode.delta 0 done pairs := hpairs
  obtain ⟨left, hleft, hloop⟩ := pullKvps_over stop hmode (stop - pos) pos ⟨.empty, []⟩
    (cut ++ following) (by omega) (by omega)
  obtain ⟨left, rfl⟩ : ∃ k, left = k + 1 := ⟨left - 1, by omega⟩
  refine ⟨left, ?_⟩
  have hopen : ¬ pos = stop := by omega
  have hdecode : extensionsDecodeTo code stop true true true ⟨pos, done ++ (cut ++ following)⟩ =
      (pullKvps code trailingMode stop (stop - pos) 0 ⟨.empty, []⟩
        ⟨pos, done ++ (cut ++ following)⟩).map fun read => (read.1.orNone, read.2) := by
    unfold extensionsDecodeTo
    simp only [Reader.tell, bind, StateT.bind, Except.bind]
    rw [if_neg hopen]
    simp only [StateT.bind]
    unfold trailingMode
    generalize pullKvps code _ stop (stop - pos) 0 _ _ = read
    cases read <;> rfl
  rw [hdecode, hloop]
  rfl

end Cut

/-! ## The message -/

variable {stop : Nat} {prof : DraftProfile} {msg : TrailingMessage stop}

/-- The body of a message whose Track Properties, behind some pairs, are cut. -/
structure CutMessage (prof : DraftProfile) (msg : TrailingMessage stop) (pos : Nat) (body : Bytes)
    (h : msg.Head) (pairs : List (Nat × KvpValue)) (cut : Bytes) : Prop where
  intro ::
  extent : pos + body.length = stop
  parsed : ∃ behind done, msg.head ⟨pos, body⟩ = .ok (h, ⟨behind, done ++ cut⟩) ∧
    behind + (done ++ cut).length = stop ∧ SpellsPairs prof.vint true 0 done pairs
  cutPair : CutPair prof.vint (lastType 0 pairs) cut

/-- What stands before the Track Properties does not depend on what follows the message. -/
theorem CutMessage.read_eq {pos : Nat} {body : Bytes} {h : msg.Head}
    {pairs : List (Nat × KvpValue)} {cut : Bytes} (hmsg : CutMessage prof msg pos body h pairs cut) :
    ∃ start, start + cut.length = stop ∧ ∀ following, ∃ left,
      msg.read prof true ⟨pos, body ++ following⟩ =
        (pullKvps prof.vint trailingMode stop (left + 1) (lastType 0 pairs) (collect pairs)
          ⟨start, cut ++ following⟩) >>= fun read =>
            (msg.finish h read.1.orNone).map fun result => (result, read.2) := by
  obtain ⟨behind, done, hhead, hstop, hpairs⟩ := hmsg.parsed
  have hlength : (done ++ cut).length = done.length + cut.length := List.length_append
  refine ⟨behind + done.length, by omega, ?_⟩
  intro following
  have hagree := (msg.framed.framedAt pos).inside body [] following hmsg.extent
  rw [List.append_nil, hhead] at hagree
  have hsame : msg.head ⟨pos, body ++ following⟩ =
      .ok (h, ⟨behind, done ++ (cut ++ following)⟩) := by
    generalize hread : msg.head ⟨pos, body ++ following⟩ = read at hagree
    generalize hcur : (⟨behind, done ++ cut⟩ : Cursor) = cur at hagree
    cases hagree with
    | inside a pos' body' hinside =>
        rw [List.append_nil, Cursor.mk.injEq] at hcur
        obtain ⟨rfl, rfl⟩ := hcur
        rw [List.append_assoc]
    | lost hx hy =>
        have hpast : stop < cur.pos := hx
        rw [← hcur] at hpast
        dsimp only at hpast
        omega
  obtain ⟨left, hdecode⟩ :=
    extensionsDecodeTo_over hpairs hmsg.cutPair.nonempty hstop following
  refine ⟨left, ?_⟩
  unfold TrailingMessage.read
  simp only [bind, StateT.bind, Except.bind, hsame, hdecode]
  generalize pullKvps prof.vint trailingMode stop (left + 1) _ _ _ = read
  cases read <;> rfl

/-- A message is read to one result, to its end, whatever follows it. -/
def Tolerated (read : Reader MoqtError ControlMessage) (stop pos : Nat) (body : Bytes) : Prop :=
  ∃ outcome : Except MoqtError ControlMessage, ∀ following,
    read ⟨pos, body ++ following⟩ = outcome.map fun msg => (msg, ⟨stop, following⟩)

/-- The flag is all that parts this decoder from the plain one.  With it set, a Track Properties
block that the message cuts is read to the same result whatever follows the message, exactly where
the type of the cut pair is whole and either outside the type space or one of a byte string whose
length cannot become too long. -/
theorem tolerated_iff {cls : MessageClass} {pos : Nat} {body cut : Bytes} {h : msg.Head}
    {pairs : List (Nat × KvpValue)} (hcls : trailingMessage prof stop cls = some msg)
    (hmsg : CutMessage prof msg pos body h pairs cut) :
    ControlMessage.deserializeWith prof stop false cls = ControlMessage.deserialize prof stop cls ∧
      (Tolerated (ControlMessage.deserializeWith prof stop true cls) stop pos body ↔
        Determined prof.vint (lastType 0 pairs) cut) := by
  refine ⟨deserializeWith_false prof stop cls, ?_⟩
  have hread : ControlMessage.deserializeWith prof stop true cls = msg.read prof true := by
    unfold ControlMessage.deserializeWith
    rw [hcls]
  rw [hread]
  obtain ⟨start, hstart, hreads⟩ := hmsg.read_eq
  have hcut := hmsg.cutPair
  have hopen : start < stop := by
    have hpos := List.length_pos_iff.mpr hcut.nonempty
    omega
  have hshort : ∀ following k, pullKvp prof.vint trailingMode stop (lastType 0 pairs)
      ⟨start, cut ++ following⟩ = .error (.underflow k) →
      msg.read prof true ⟨pos, body ++ following⟩ =
        (msg.finish h (collect pairs).orNone).map fun result => (result, ⟨stop, following⟩) := by
    intro following k hpair
    obtain ⟨left, hleft⟩ := hreads following
    rw [hleft, pullKvps_short left (collect pairs) hcut.nonempty hstart hpair]
    rfl
  have hviolation : ∀ following reason, pullKvp prof.vint trailingMode stop (lastType 0 pairs)
      ⟨start, cut ++ following⟩ = .error (.violation reason) →
      msg.read prof true ⟨pos, body ++ following⟩ = .error (.violation reason) := by
    intro following reason hpair
    obtain ⟨left, hleft⟩ := hreads following
    rw [hleft, pullKvps_violation left (collect pairs) hopen hpair]
    rfl
  constructor
  · rintro ⟨outcome, htolerated⟩
    by_contra hnot
    have hbound : 65538 ≤ prof.vint.bound := le_trans (by decide) prof.vint_bound
    rcases undetermined_pullKvp prof.vint_local prof.vint_open hbound hnot hcut hstart with
      ⟨⟨k, hcuts⟩, following, pair, next, hpast, hpair⟩ |
        ⟨following, following', reason, reason', hne, hfails, hfails'⟩
    · -- with nothing behind it the message is finished, and here it overruns
      obtain ⟨left, hleft⟩ := hreads following
      obtain ⟨reason, hover⟩ := pullKvps_overrun left (collect pairs) hopen hpair hpast
      have hempty := hshort [] k (by rw [List.append_nil]; exact hcuts)
      rw [htolerated] at hempty
      rw [hover, htolerated] at hleft
      cases outcome with
      | ok result => cases hleft
      | error e =>
          cases hleft
          cases hfinish : msg.finish h (collect pairs).orNone with
          | ok result =>
              rw [hfinish] at hempty
              cases hempty
          | error e =>
              rw [hfinish] at hempty
              cases hempty
              exact (msg.inBlock h _).fails _ hfinish reason rfl
    · have hone := hviolation following reason hfails
      have hother := hviolation following' reason' hfails'
      rw [htolerated] at hone hother
      cases outcome with
      | ok result => cases hone
      | error e =>
          cases hone
          cases hother
          exact hne rfl
  · intro hdetermined
    rcases hdetermined.pullKvp prof.vint_local hcut hstart with hshorts | ⟨reason, hfails⟩
    · refine ⟨msg.finish h (collect pairs).orNone, ?_⟩
      intro following
      obtain ⟨k, hpair⟩ := hshorts following
      exact hshort following k hpair
    · refine ⟨.error (.violation reason), ?_⟩
      intro following
      rw [hviolation following reason (hfails following)]
      rfl

/-- A byte string of five bytes, of which the message holds one. -/
theorem tolerated_iff_byteString :
    Tolerated (ControlMessage.deserializeWith (profileFor .d16) 6 true .subscribeOk) 6 0
      [0, 0, 0, 1, 5, 0xAA] := by
  have hcut : CutPair (profileFor .d16).vint 0 [1, 5, 0xAA] := by
    refine ⟨List.cons_ne_nil _ _, ?_⟩
    rintro ⟨type, body, rest, extId, value, hbytes, ⟨⟨step, hstep, hextId⟩, -⟩, hvalue⟩
    have htype := hstep.dec_append (body ++ rest)
    have hone : (profileFor .d16).vint.dec [1, 5, 0xAA] = some (1, [5, 0xAA]) := rfl
    rw [← List.append_assoc, ← hbytes, hone, Option.some.injEq, Prod.mk.injEq] at htype
    obtain ⟨rfl, hbehind⟩ := htype
    cases hvalue with
    | int heven hv => exact absurd heven (by rw [hextId]; decide)
    | @bytes len v hodd hlen hmax =>
        have hlength := hlen.dec_append (v ++ rest)
        have hfive : (profileFor .d16).vint.dec [5, 0xAA] = some (5, [0xAA]) := rfl
        rw [← List.append_assoc, ← hbehind, hfive, Option.some.injEq, Prod.mk.injEq] at hlength
        have hshort := congrArg List.length hlength.2
        rw [List.length_append, ← hlength.1, List.length_singleton] at hshort
        omega
  have hdetermined : Determined (profileFor .d16).vint (lastType 0 []) [1, 5, 0xAA] := by
    refine ⟨[1], 1, [5, 0xAA], rfl, rfl, Or.inr ⟨rfl, ?_⟩⟩
    intro hnone
    cases hnone
  have hmsg : CutMessage (profileFor .d16) (trailingSubscribeOk (profileFor .d16) 6) 0
      [0, 0, 0, 1, 5, 0xAA] (some 0, 0, .empty, none) [] [1, 5, 0xAA] :=
    ⟨rfl, ⟨3, [], rfl, rfl, .nil⟩, hcut⟩
  exact (tolerated_iff (by rfl) hmsg).2.mpr hdetermined

/-- The first byte of a type of two, with nothing and with two bytes behind the message. -/
theorem tolerance_depends_on_following :
    ¬ ∀ (prof : DraftProfile) (stop : Nat) (cls : MessageClass) (msg : TrailingMessage stop)
      (pos : Nat) (body cut : Bytes) (h : msg.Head) (pairs : List (Nat × KvpValue)),
      trailingMessage prof stop cls = some msg → CutMessage prof msg pos body h pairs cut →
      Tolerated (ControlMessage.deserializeWith prof stop true cls) stop pos body := by
  intro hall
  have hcut : CutPair (profileFor .d16).vint 0 [0x40] := by
    refine ⟨List.cons_ne_nil _ _, ?_⟩
    rintro ⟨type, body, rest, extId, value, hbytes, ⟨⟨step, hstep, -⟩, -⟩, -⟩
    have htype := hstep.dec_append (body ++ rest)
    rw [← List.append_assoc, ← hbytes] at htype
    cases htype
  have hmsg : CutMessage (profileFor .d16) (trailingSubscribeOk (profileFor .d16) 4) 0
      [0, 0, 0, 0x40] (some 0, 0, .empty, none) [] [0x40] :=
    ⟨rfl, ⟨3, [], rfl, rfl, .nil⟩, hcut⟩
  obtain ⟨outcome, htolerated⟩ := hall (profileFor .d16) 4 .subscribeOk _ 0 _ _ _ _ (by rfl) hmsg
  have hnothing : ∃ result, ControlMessage.deserializeWith (profileFor .d16) 4 true .subscribeOk
      ⟨0, [0, 0, 0, 0x40] ++ []⟩ = .ok result := ⟨_, rfl⟩
  have hmore : ∃ reason, ControlMessage.deserializeWith (profileFor .d16) 4 true .subscribeOk
      ⟨0, [0, 0, 0, 0x40] ++ [0x02, 0x00]⟩ = .error (.malformedKvp reason) := ⟨_, rfl⟩
  obtain ⟨result, hnothing⟩ := hnothing
  obtain ⟨reason, hmore⟩ := hmore
  rw [htolerated] at hnothing hmore
  cases outcome with
  | ok msg => cases hmore
  | error e => cases hnothing

end AioMoqt.Messages
