import AioMoqt.Media.Locmaf.Proofs.Delta

/-!
# Encoder and decoder agree over a group

One group fed to `LocmafEncoder.encode` and, Object by Object, to
`LocmafDecoder.push`.  The encoder's and the decoder's group states stand for each
other after every Object, so every push returns the canonical form of its chunk.

Two kinds of chunk escape: an empty chunk without senc on a protected track whose
default IV size is not 0 comes back with encryption boxes it never had, and a
delta header is refused when its subsample total exceeds the sample limit, which
a full header is not held to.
-/

namespace AioMoqt.Media.Locmaf

open AioMoqt.Lib AioMoqt.Lib.BigEndian AioMoqt.Buffer

/-! ## The represented fields of a chunk -/

theorem unlessDefault_mem {default v : Nat} {vs : List Nat}
    (h : unlessDefault default vs = some v) : v ∈ vs := by
  cases vs with
  | nil => simp [unlessDefault] at h
  | cons x xs =>
      simp only [unlessDefault] at h
      split_ifs at h
      cases h
      simp

theorem le_u64Max_of_le_u32Max {v : Nat} (h : v ≤ u32Max) : v ≤ u64Max := by
  simp only [u32Max, u64Max] at h ⊢
  omega

section Chunk

variable {eff : EffectiveValues} {sencIv : Option Nat} {ctx : TrackContext}

theorem represent_scalar_le (src : Source eff sencIv ctx) {id : ScalarId} {v : Nat}
    (h : represent eff sencIv ctx (.scalar id) = some v) : v ≤ u64Max := by
  cases id with
  | sampleCount =>
      cases h
      have := src.count_le
      simp only [maxSampleCount, u64Max] at this ⊢
      omega
  | baseMediaDecodeTime =>
      cases h
      exact src.bmdt_le
  | sampleDescriptionIndex =>
      simp only [represent] at h
      split_ifs at h
      cases h
      exact le_u64Max_of_le_u32Max src.sdi_le
  | defaultSampleDuration =>
      simp only [represent] at h
      split_ifs at h
      exact le_u64Max_of_le_u32Max (src.durations_le v (unlessDefault_mem h))
  | defaultSampleSize =>
      simp only [represent] at h
      split_ifs at h
      exact le_u64Max_of_le_u32Max (src.sizes_le v (unlessDefault_mem h))
  | defaultSampleFlags =>
      simp only [represent] at h
      split_ifs at h
      · exact le_u64Max_of_le_u32Max (src.flags_le v (unlessDefault_mem h))
      · exact le_u64Max_of_le_u32Max
          (src.flags_le v (List.mem_of_mem_drop (unlessDefault_mem h)))
  | firstSampleFlags =>
      simp only [represent] at h
      split_ifs at h
      exact le_u64Max_of_le_u32Max (src.flags_le v (List.mem_of_head? h))
  | ivSize =>
      cases sencIv with
      | none => simp [represent] at h
      | some iv =>
          obtain ⟨-, -, hle, -, -⟩ := src.encryption
          simp only [represent, Option.bind_some] at h
          split_ifs at h
          cases h
          simp only [u64Max]
          omega

/-- The lists a subsample map is represented by. -/
theorem represent_subsamples (src : Source eff sencIv ctx) {counts : List Nat}
    (h : represent eff sencIv ctx (.list .subsampleCounts) = some counts) :
    counts.length = eff.sampleCount ∧ eff.clearBytes.length = counts.sum ∧
      eff.protectedBytes.length = counts.sum ∧ (∀ c ∈ counts, c ≤ u32Max) ∧
      (∀ c ∈ eff.clearBytes, c ≤ u32Max) ∧ ∀ c ∈ eff.protectedBytes, c ≤ u32Max := by
  cases sencIv with
  | none => simp [represent] at h
  | some iv =>
      obtain ⟨-, -, -, -, hmap⟩ := src.encryption
      have hcounts : eff.subsampleCounts = some counts := h
      unfold SubsampleMap at hmap
      rw [hcounts] at hmap
      obtain ⟨-, hlen, hclear, hprot, hcountsLe, hclearLe, hprotLe, -⟩ := hmap
      have hwide : ∀ c, c ≤ u16Max → c ≤ u32Max := by
        intro c hc
        simp only [u16Max, u32Max] at hc ⊢
        omega
      exact ⟨hlen, hclear, hprot, fun c hc => hwide c (hcountsLe c hc),
        fun c hc => hwide c (hclearLe c hc), hprotLe⟩

/-- The byte lists come with the counts. -/
theorem represent_counts_of_bytes {id : ListId} {v : List Nat}
    (hid : id = .clearBytes ∨ id = .protectedBytes)
    (h : represent eff sencIv ctx (.list id) = some v) :
    ∃ counts, represent eff sencIv ctx (.list .subsampleCounts) = some counts ∧
      v = if id = .clearBytes then eff.clearBytes else eff.protectedBytes := by
  rcases hid with rfl | rfl <;>
  · cases sencIv with
    | none => simp [represent] at h
    | some iv =>
        simp only [represent, Option.bind_some, Option.map_eq_some_iff] at h ⊢
        obtain ⟨counts, hcounts, rfl⟩ := h
        exact ⟨counts, hcounts, rfl⟩

/-- Every list of a chunk has the length its header implies and 32-bit values. -/
theorem represent_list (src : Source eff sencIv ctx) {id : ListId} {v : List Nat}
    (h : represent eff sencIv ctx (.list id) = some v) :
    v.length = listLength (represent eff sencIv ctx) id ∧ ∀ x ∈ v, x ≤ u32Max := by
  cases id with
  | sampleSizes =>
      simp only [represent] at h
      split_ifs at h
      cases h
      refine ⟨?_, fun x hx => src.sizes_le x (List.dropLast_subset _ hx)⟩
      rw [List.length_dropLast, src.sizes_length]
      rfl
  | sampleDurations =>
      simp only [represent] at h
      split_ifs at h
      cases h
      exact ⟨rfl, src.durations_le⟩
  | sampleFlags =>
      simp only [represent] at h
      split_ifs at h
      cases h
      exact ⟨src.flags_length, src.flags_le⟩
  | subsampleCounts =>
      obtain ⟨hlen, -, -, hle, -⟩ := represent_subsamples src h
      exact ⟨hlen, hle⟩
  | clearBytes =>
      obtain ⟨counts, hcounts, rfl⟩ := represent_counts_of_bytes (.inl rfl) h
      obtain ⟨-, hlen, -, -, hle, -⟩ := represent_subsamples src hcounts
      refine ⟨?_, hle⟩
      simp only [listLength, hcounts, Option.getD_some, if_true, hlen]
  | protectedBytes =>
      obtain ⟨counts, hcounts, rfl⟩ := represent_counts_of_bytes (.inr rfl) h
      obtain ⟨-, -, hlen, -, -, hle⟩ := represent_subsamples src hcounts
      refine ⟨?_, hle⟩
      simp only [listLength, hcounts, Option.getD_some, reduceCtorEq, if_false, hlen]

theorem represented_represent (src : Source eff sencIv ctx) :
    Represented (represent eff sencIv ctx) where
  scalar_le := represent_scalar_le src
  list_length := fun h => (represent_list src h).1
  list_le := fun h x hx => le_u64Max_of_le_u32Max ((represent_list src h).2 x hx)
  offsets_length := by
    intro v h
    simp only [represent] at h
    split_ifs at h
    cases h
    exact src.ctos_length
  deleted := rfl

/-- The subsample total of a chunk is the one its header is held to. -/
theorem represent_total_le (eff : EffectiveValues) (sencIv : Option Nat)
    (ctx : TrackContext) :
    ((represent eff sencIv ctx (.list .subsampleCounts)).getD []).sum ≤
      (eff.subsampleCounts.getD []).sum := by
  cases sencIv with
  | none => simp [represent]
  | some iv => exact le_rfl

end Chunk

/-! ## Group states -/

/-- The encoder's and the decoder's state of a group stand for each other. -/
structure GroupAgrees (enc dec : GroupState) : Prop where
  fields : Option.Rel Agrees enc.fields dec.fields
  next : dec.nextBmdt = enc.nextBmdt
  last : dec.lastObjectId = enc.lastObjectId

theorem GroupAgrees.fresh : GroupAgrees {} {} := ⟨.none, rfl, rfl⟩

theorem GroupAgrees.raw {enc dec : GroupState} {objectId : Nat} :
    GroupAgrees { enc.reset with lastObjectId := objectId }
      { dec.reset with lastObjectId := objectId } :=
  ⟨.none, rfl, rfl⟩

theorem GroupAgrees.store {enc dec : Fields} (h : Agrees enc dec) (eff : EffectiveValues)
    (objectId : Nat) : GroupAgrees (.store enc eff objectId) (.store dec eff objectId) :=
  ⟨.some h, rfl, rfl⟩

namespace LocmafDecoder

theorem track_state? (dec : LocmafDecoder) (groupId : Nat) :
    ((dec.track groupId).state? groupId).isSome := by
  unfold track
  cases hstate : dec.state? groupId with
  | some s => simp [hstate]
  | none =>
      simp only [state?, Option.isSome_map, List.find?_isSome, List.length_append,
        List.length_singleton]
      refine ⟨(groupId, {}), ?_, by simp⟩
      rw [List.drop_append_of_le_length (by simp only [maxTrackedGroups]; omega)]
      simp

theorem setState_state? (dec : LocmafDecoder) (groupId : Nat) (state : GroupState)
    (h : (dec.state? groupId).isSome) :
    (dec.setState groupId state).state? groupId = some state := by
  obtain ⟨ctx, groups⟩ := dec
  simp only [state?, setState] at h ⊢
  induction groups with
  | nil => simp at h
  | cons g groups ih =>
      by_cases hg : g.1 = groupId
      · simp [hg]
      · simp only [List.map_cons, hg, if_false, List.find?_cons, decide_false] at h ⊢
        exact ih h

theorem track_ctx (dec : LocmafDecoder) (groupId : Nat) :
    (dec.track groupId).ctx = dec.ctx := by
  unfold track
  split <;> rfl

/-- A push in terms of `reconstruct` on the group's state. -/
theorem push_ok {code : PrefixCode} (dec : LocmafDecoder) (groupId objectId : Nat)
    {payload bytes : Bytes} {obj : LocmafObject} {eff : Option EffectiveValues}
    {state : GroupState} (hparse : parseObject code payload = .ok obj)
    (hrec : reconstruct obj ((dec.state? groupId).getD {}) dec.ctx objectId =
      (.ok (bytes, eff), state)) :
    ∃ dec', dec.push code groupId objectId payload = (.ok bytes, dec') ∧
      dec'.ctx = dec.ctx ∧ dec'.state? groupId = some state := by
  refine ⟨(dec.track groupId).setState groupId state, ?_, dec.track_ctx groupId,
    setState_state? _ _ _ (dec.track_state? groupId)⟩
  simp only [push, hparse, track_ctx, hrec, Except.map]

end LocmafDecoder

/-! ## One Object -/

theorem fullWire_headerOk {fields : Fields} (h : fields .deleted = none) :
    HeaderOk true (fullWire fields) := h

theorem deltaWire_headerOk (cur prev : Fields) : HeaderOk false (deltaWire cur prev) := by
  simp only [HeaderOk, deltaWire, Bool.false_eq_true, if_false]
  cases cur (.scalar .baseMediaDecodeTime) <;> simp

theorem objectFields_fullWire {fields : Fields} {n bmdt : Nat}
    (hn : fields (.scalar .sampleCount) = some n)
    (hbmdt : fields (.scalar .baseMediaDecodeTime) = some bmdt) (state : GroupState)
    (objectId : Nat) : objectFields true (fullWire fields) state objectId = .ok fields := by
  have hoffsets : (fullWire fields .compositionOffsets).map (·.map unzigzag) =
      fields .compositionOffsets := by
    simp only [fullWire]
    cases fields .compositionOffsets with
    | none => rfl
    | some v => simp [Function.comp_def, unzigzag_zigzag]
  simp only [objectFields, if_true]
  split
  · next id hfind =>
      have hnone := List.find?_some hfind
      have hmem := List.mem_of_find?_eq_some hfind
      simp only [List.mem_cons, List.not_mem_nil, or_false] at hmem
      rcases hmem with rfl | rfl <;> simp [fullWire, hn, hbmdt] at hnone
  · refine congrArg Except.ok ?_
    funext f
    cases f with
    | compositionOffsets => exact hoffsets
    | scalar id => rfl
    | list id => rfl
    | ivs => rfl
    | deleted => rfl

/-- The chunk the receiver should get: the canonical form of a chunk inside the
field model, the chunk itself otherwise. -/
def canonical (ctx : TrackContext) (chunk : Bytes) : Except LocmafError Bytes :=
  match parseChunk chunk ctx with
  | some eff => buildChunk eff ctx
  | none => .ok chunk

/-- `build_chunk` accepts the chunk's effective values. -/
def buildable (ctx : TrackContext) (chunk : Bytes) : Bool :=
  match canonical ctx chunk with
  | .ok _ => true
  | .error _ => false

/-- Neither kind of chunk the receiver gets wrong: an empty chunk without senc on
a protected track whose default IV size is not 0, and a chunk sent as a delta
whose subsample total exceeds the limit. -/
def delivers (ctx : TrackContext) (chunk : Bytes) (state : GroupState) (objectId : Nat) :
    Bool :=
  match readChunk chunk ctx with
  | none => true
  | some (eff, sencIv) =>
      !(sencIv.isNone && ctx.isProtected && ctx.ivSize != 0) &&
        (LocmafEncoder.sendsFull state eff objectId ||
          decide ((eff.subsampleCounts.getD []).sum ≤ maxSampleCount))

theorem headerWire_full {fields : Fields} {state : GroupState} {eff : EffectiveValues}
    {objectId : Nat} (h : LocmafEncoder.sendsFull state eff objectId = true) :
    LocmafEncoder.headerWire fields state eff objectId = fullWire fields := by
  unfold LocmafEncoder.headerWire
  split
  · next hfalse => simp [h] at hfalse
  · rfl

theorem headerWire_delta {fields prev : Fields} {state : GroupState} {eff : EffectiveValues}
    {objectId : Nat} (h : LocmafEncoder.sendsFull state eff objectId = false)
    (hprev : state.fields = some prev) :
    LocmafEncoder.headerWire fields state eff objectId = deltaWire fields prev := by
  simp only [LocmafEncoder.headerWire, hprev, h]

/-- What an omitted full header tells about the sender's state. -/
theorem sendsFull_eq_false {state : GroupState} {eff : EffectiveValues} {objectId : Nat}
    (h : LocmafEncoder.sendsFull state eff objectId = false) :
    ∃ prev, state.fields = some prev ∧ (objectId : Int) = state.lastObjectId + 1 ∧
      state.nextBmdt = some eff.bmdt := by
  simp only [LocmafEncoder.sendsFull, Bool.or_eq_false_iff, Option.isNone_eq_false_iff,
    decide_eq_false_iff_not, ne_eq, not_not] at h
  obtain ⟨⟨hfields, hid⟩, hbmdt⟩ := h
  obtain ⟨prev, hprev⟩ := Option.isSome_iff_exists.mp hfields
  exact ⟨prev, hprev, hid, hbmdt⟩

theorem headerWire_headerOk {fields : Fields} (hdeleted : fields .deleted = none)
    (state : GroupState) (eff : EffectiveValues) (objectId : Nat) :
    HeaderOk (LocmafEncoder.sendsFull state eff objectId)
      (LocmafEncoder.headerWire fields state eff objectId) := by
  cases hfull : LocmafEncoder.sendsFull state eff objectId with
  | true =>
      rw [headerWire_full hfull]
      exact fullWire_headerOk hdeleted
  | false =>
      obtain ⟨prev, hprev, -, -⟩ := sendsFull_eq_false hfull
      rw [headerWire_delta hfull hprev]
      exact deltaWire_headerOk fields prev

theorem objectFields_headerWire {eff : EffectiveValues} {sencIv : Option Nat}
    {ctx : TrackContext} (src : Source eff sencIv ctx) {state decState : GroupState}
    (h : GroupAgrees state decState) {objectId : Nat}
    (htotal : LocmafEncoder.sendsFull state eff objectId = false →
      (eff.subsampleCounts.getD []).sum ≤ maxSampleCount) :
    ∃ fields, objectFields (LocmafEncoder.sendsFull state eff objectId)
        (LocmafEncoder.headerWire (represent eff sencIv ctx) state eff objectId) decState
        objectId = .ok fields ∧
      Agrees (represent eff sencIv ctx) fields := by
  cases hfull : LocmafEncoder.sendsFull state eff objectId with
  | true =>
      refine ⟨represent eff sencIv ctx, ?_, .refl _⟩
      rw [headerWire_full hfull]
      exact objectFields_fullWire rfl rfl decState objectId
  | false =>
      obtain ⟨prev, hprev, hid, hbmdt⟩ := sendsFull_eq_false hfull
      obtain ⟨ref, href, hagrees⟩ : ∃ ref, decState.fields = some ref ∧ Agrees prev ref := by
        have hrel := h.fields
        rw [hprev] at hrel
        generalize decState.fields = o at hrel
        cases hrel with
        | some hagrees => exact ⟨_, rfl, hagrees⟩
      obtain ⟨next, hnext, hnextAgrees⟩ := applyDelta_deltaWire
        (represented_represent src) hagrees rfl src.count_le
        ((represent_total_le eff sencIv ctx).trans (htotal hfull)) rfl
      refine ⟨next, ?_, hnextAgrees⟩
      rw [headerWire_delta hfull hprev]
      simp only [objectFields, href, h.last, hid, h.next, hbmdt, Bool.false_eq_true,
        if_false, ne_eq, not_true_eq_false]
      exact hnext

/-- A moof-carrying Object comes back as the chunk it stands for. -/
theorem reconstruct_headerWire {eff : EffectiveValues} {sencIv : Option Nat}
    {ctx : TrackContext} (src : Source eff sencIv ctx) (hhidden : ¬ Hidden sencIv ctx)
    {state decState : GroupState} (h : GroupAgrees state decState) {objectId : Nat}
    (htotal : LocmafEncoder.sendsFull state eff objectId = false →
      (eff.subsampleCounts.getD []).sum ≤ maxSampleCount)
    {built : Bytes} (hbuilt : buildChunk eff ctx = .ok built) :
    ∃ decState', reconstruct
        (.moof (LocmafEncoder.sendsFull state eff objectId)
          (LocmafEncoder.headerWire (represent eff sencIv ctx) state eff objectId)
          eff.genBoxes eff.mdat) decState ctx objectId =
        (.ok (built, some eff), decState') ∧
      GroupAgrees (.store (represent eff sencIv ctx) eff objectId) decState' := by
  obtain ⟨fields, hfields, hrep⟩ := objectFields_headerWire src h htotal
  refine ⟨.store fields eff objectId, ?_, .store hrep eff objectId⟩
  simp only [reconstruct, hfields, expand_represent src hrep hhidden, hbuilt, bind,
    Except.bind, pure, Except.pure]

/-- The decoder's answer to one encoded chunk, and the states that go on. -/
theorem push_encode {code : PrefixCode} {enc enc' : LocmafEncoder} {dec : LocmafDecoder}
    {state state' : GroupState} {groupId objectId : Nat} {chunk out : Bytes}
    (hctx : dec.ctx = enc.ctx)
    (hagrees : GroupAgrees state ((dec.state? groupId).getD {}))
    (henc : enc.encode code chunk state objectId = .ok (out, enc', state'))
    (hbuild : buildable enc.ctx chunk = true)
    (hdeliver : delivers enc.ctx chunk state objectId = true) :
    ∃ dec' bytes, dec.push code groupId objectId out = (.ok bytes, dec') ∧
      canonical enc.ctx chunk = .ok bytes ∧ enc'.ctx = enc.ctx ∧ dec'.ctx = enc.ctx ∧
      GroupAgrees state' ((dec'.state? groupId).getD {}) := by
  cases hread : readChunk chunk enc.ctx with
  | none =>
      have hcanonical : canonical enc.ctx chunk = .ok chunk := by
        simp [canonical, parseChunk, hread]
      simp only [LocmafEncoder.encode, hread, bind, Except.bind] at henc
      split at henc
      · simp at henc
      next bs hser =>
        cases henc
        have hparse := parseObject_serializeObject hser (by simp)
        obtain ⟨dec', hpush, hctx', hstate⟩ :=
          LocmafDecoder.push_ok dec groupId objectId hparse rfl
        refine ⟨dec', chunk, hpush, hcanonical, rfl, hctx'.trans hctx, ?_⟩
        rw [hstate]
        exact .raw
  | some read =>
      obtain ⟨eff, sencIv⟩ := read
      have src := readChunk_source hread
      have hcanonical : canonical enc.ctx chunk = buildChunk eff enc.ctx := by
        simp [canonical, parseChunk, hread]
      obtain ⟨built, hbuilt⟩ : ∃ built, buildChunk eff enc.ctx = .ok built := by
        unfold buildable at hbuild
        rw [hcanonical] at hbuild
        split at hbuild
        · next built hbuilt => exact ⟨built, hbuilt⟩
        · simp at hbuild
      unfold delivers at hdeliver
      rw [hread] at hdeliver
      simp only [Bool.and_eq_true, Bool.or_eq_true, decide_eq_true_eq] at hdeliver
      have hhidden : ¬ Hidden sencIv enc.ctx := by
        rintro ⟨rfl, hprot, hiv⟩
        simp [hprot, hiv] at hdeliver
      have htotal : LocmafEncoder.sendsFull state eff objectId = false →
          (eff.subsampleCounts.getD []).sum ≤ maxSampleCount := by
        intro hfull
        rcases hdeliver.2 with h | h
        · simp [hfull] at h
        · exact h
      simp only [LocmafEncoder.encode, hread, bind, Except.bind] at henc
      split at henc
      · simp at henc
      next bs hser =>
        cases henc
        have hparse := parseObject_serializeObject hser (by
          intro full wire gen mdat heq
          cases heq
          exact headerWire_headerOk rfl state eff objectId)
        obtain ⟨decState, hrec, hstore⟩ := reconstruct_headerWire src hhidden hagrees htotal
          hbuilt
        obtain ⟨dec', hpush, hctx', hstate⟩ :=
          LocmafDecoder.push_ok dec groupId objectId hparse
            (by rw [hctx]; exact hrec)
        refine ⟨dec', built, hpush, hcanonical.trans hbuilt, rfl, hctx'.trans hctx, ?_⟩
        rw [hstate]
        exact hstore

/-! ## A whole group -/

/-- Feed chunks to the encoder and every produced Object to the decoder: each
delivered chunk with the decoder's answer.  A chunk `encode` raises on is not
sent and leaves both sides as they are. -/
def groupRun (code : PrefixCode) (groupId : Nat) :
    List (Bytes × Nat) → LocmafEncoder → GroupState → LocmafDecoder →
      List (Bytes × Except LocmafError Bytes)
  | [], _, _, _ => []
  | (chunk, objectId) :: rest, enc, state, dec =>
      match enc.encode code chunk state objectId with
      | .error _ => groupRun code groupId rest enc state dec
      | .ok (out, enc', state') =>
          let (answer, dec') := dec.push code groupId objectId out
          (chunk, answer) :: groupRun code groupId rest enc' state' dec'

/-- Every sent chunk meets `delivers` in the encoder state it is sent from. -/
def allDeliver (code : PrefixCode) : List (Bytes × Nat) → LocmafEncoder → GroupState → Bool
  | [], _, _ => true
  | (chunk, objectId) :: rest, enc, state =>
      match enc.encode code chunk state objectId with
      | .error _ => allDeliver code rest enc state
      | .ok (_, enc', state') =>
          delivers enc.ctx chunk state objectId && allDeliver code rest enc' state'

/-- From any pair of agreeing states, every answer is the canonical chunk. -/
theorem groupRun_canonical {code : PrefixCode} {groupId : Nat} {ctx : TrackContext}
    {items : List (Bytes × Nat)} (hbuild : ∀ item ∈ items, buildable ctx item.1 = true) :
    ∀ {enc : LocmafEncoder} {state : GroupState} {dec : LocmafDecoder},
      enc.ctx = ctx → dec.ctx = ctx →
      GroupAgrees state ((dec.state? groupId).getD {}) →
      allDeliver code items enc state = true →
      ∀ r ∈ groupRun code groupId items enc state dec,
        ∃ bytes, r.2 = .ok bytes ∧ canonical ctx r.1 = .ok bytes := by
  induction items with
  | nil => simp [groupRun]
  | cons item items ih =>
      intro enc state dec henc hdec hagrees hall
      obtain ⟨chunk, objectId⟩ := item
      have hrest : ∀ item ∈ items, buildable ctx item.1 = true :=
        fun item hitem => hbuild item (by simp [hitem])
      cases hencode : enc.encode code chunk state objectId with
      | error e =>
          simp only [allDeliver, hencode] at hall
          simp only [groupRun, hencode]
          exact ih hrest henc hdec hagrees hall
      | ok sent =>
          obtain ⟨out, enc', state'⟩ := sent
          simp only [allDeliver, hencode, Bool.and_eq_true] at hall
          have hbuildHead : buildable enc.ctx chunk = true := by
            rw [henc]
            exact hbuild (chunk, objectId) (by simp)
          obtain ⟨dec', bytes, hpush, hbytes, henc', hdec', hagrees'⟩ :=
            push_encode (hdec.trans henc.symm) hagrees hencode hbuildHead hall.1
          simp only [groupRun, hencode, hpush]
          intro r hr
          rcases List.mem_cons.mp hr with rfl | hr
          · exact ⟨bytes, rfl, henc ▸ hbytes⟩
          · exact ih hrest (henc'.trans henc) (hdec'.trans henc) hagrees' hall.2 r hr

/-- A decoder starts out with the header of its init segment. -/
theorem ofInit_eq_ok {init : Bytes} {ctx : TrackContext} {dec : LocmafDecoder}
    (hctx : TrackContext.fromInit init = .ok ctx) (h : LocmafDecoder.ofInit init = .ok dec) :
    dec = { ctx } := by
  unfold LocmafDecoder.ofInit at h
  rw [hctx] at h
  exact (Except.ok.inj h).symm

/-- A group from its start, both sides on one CMAF header, which the decoder may have from an init
segment: every push returns the canonical chunk, or the chunk itself when it was sent as
rawBoxes. -/
theorem group_round_trip (code : PrefixCode) (ctx : TrackContext) (groupId : Nat)
    (items : List (Bytes × Nat)) (hbuild : ∀ item ∈ items, buildable ctx item.1 = true)
    (hdeliver : allDeliver code items { ctx } {} = true) :
    (∀ r ∈ groupRun code groupId items { ctx } {} { ctx },
      ∃ bytes, r.2 = .ok bytes ∧ canonical ctx r.1 = .ok bytes) ∧
    ∀ init dec, TrackContext.fromInit init = .ok ctx → LocmafDecoder.ofInit init = .ok dec →
      ∀ r ∈ groupRun code groupId items { ctx } {} dec,
        ∃ bytes, r.2 = .ok bytes ∧ canonical ctx r.1 = .ok bytes := by
  constructor
  · exact groupRun_canonical hbuild rfl rfl .fresh hdeliver
  · intro init dec hctx hdec
    rw [ofInit_eq_ok hctx hdec]
    exact groupRun_canonical hbuild rfl rfl .fresh hdeliver

/-- A clear track with one sample description and no defaults. -/
def clearTrack : TrackContext :=
  { trackId := 1, timescale := 90000, defaultSampleDescriptionIndex := 1
    defaultSampleDuration := 0, defaultSampleSize := 0, defaultSampleFlags := 0
    isProtected := false, ivSize := 0, trackId_le := by decide
    defaultSampleDescriptionIndex_le := by decide, defaultSampleDuration_le := by decide
    defaultSampleSize_le := by decide, defaultSampleFlags_le := by decide
    ivSize_le := by decide }

/-- The same track protected with 8-byte IVs. -/
def protectedTrack : TrackContext :=
  { clearTrack with isProtected := true, ivSize := 8, ivSize_le := by decide }

/-- A chunk of one sample of `duration` at `bmdt`. -/
def oneSample (bmdt duration : Nat) (payload : Bytes) : Bytes :=
  boxHeader 96 (fourCC "moof") ++ boxHeader 16 (fourCC "mfhd") ++ toBE 8 0 ++
  boxHeader 72 (fourCC "traf") ++
  boxHeader 16 (fourCC "tfhd") ++ toBE 4 0x020000 ++ toBE 4 1 ++
  boxHeader 20 (fourCC "tfdt") ++ toBE 4 (2 ^ 24) ++ toBE 8 bmdt ++
  boxHeader 28 (fourCC "trun") ++ toBE 4 0x301 ++ toBE 4 1 ++ toBE 4 104 ++
  toBE 4 duration ++ toBE 4 payload.length ++
  boxHeader (8 + payload.length) (fourCC "mdat") ++ payload

/-- A chunk of no samples and no senc. -/
def noSamples : Bytes :=
  boxHeader 88 (fourCC "moof") ++ boxHeader 16 (fourCC "mfhd") ++ toBE 8 0 ++
  boxHeader 64 (fourCC "traf") ++
  boxHeader 16 (fourCC "tfhd") ++ toBE 4 0x020000 ++ toBE 4 1 ++
  boxHeader 20 (fourCC "tfdt") ++ toBE 4 (2 ^ 24) ++ toBE 8 0 ++
  boxHeader 20 (fourCC "trun") ++ toBE 4 1 ++ toBE 4 0 ++ toBE 4 96 ++
  boxHeader 8 (fourCC "mdat")

/-- An init segment of that clear track. -/
def clearInit : Bytes :=
  boxHeader 112 (fourCC "moov") ++ boxHeader 64 (fourCC "trak") ++
  boxHeader 24 (fourCC "tkhd") ++ toBE 12 0 ++ toBE 4 1 ++
  boxHeader 32 (fourCC "mdia") ++ boxHeader 24 (fourCC "mdhd") ++ toBE 12 0 ++ toBE 4 90000 ++
  boxHeader 40 (fourCC "mvex") ++ boxHeader 32 (fourCC "trex") ++ toBE 4 0 ++ toBE 4 1 ++
  toBE 4 1 ++ toBE 12 0

/-- Two chunks, the second carried as a delta, and a chunk outside the model. -/
def shortGroup : List (Bytes × Nat) :=
  [(oneSample 5 10 [1, 2], 0), (oneSample 15 12 [1, 2, 3], 1), ([0, 0, 0, 8, 1, 2, 3, 4], 5)]

theorem group_round_trip_shortGroup :
    (groupRun vi64 0 shortGroup { ctx := clearTrack } {} { ctx := clearTrack }).length = 3 ∧
    ∃ dec, LocmafDecoder.ofInit clearInit = .ok dec ∧
      ∀ r ∈ groupRun vi64 0 shortGroup { ctx := clearTrack } {} dec,
        ∃ bytes, r.2 = .ok bytes ∧ canonical clearTrack r.1 = .ok bytes := by
  have hctx : TrackContext.fromInit clearInit = .ok clearTrack := by decide +kernel
  have hdec : LocmafDecoder.ofInit clearInit = .ok { ctx := clearTrack } := by
    unfold LocmafDecoder.ofInit
    rw [hctx]
    rfl
  exact ⟨by decide +kernel, _, hdec,
    (group_round_trip vi64 clearTrack 0 shortGroup (by decide +kernel) (by decide +kernel)).2
      clearInit _ hctx hdec⟩

/-- An empty chunk of a protected track comes back with saiz, saio and senc. -/
theorem group_round_trip_noSamples :
    ¬ ∀ (ctx : TrackContext) (items : List (Bytes × Nat)),
      (items.map Prod.snd).Pairwise (· < ·) →
      (∀ item ∈ items, buildable ctx item.1 = true) →
      ∀ r ∈ groupRun vi64 0 items { ctx } {} { ctx },
        ∃ bytes, r.2 = .ok bytes ∧ canonical ctx r.1 = .ok bytes := by
  intro h
  have hrun : (groupRun vi64 0 [(noSamples, 0)] { ctx := protectedTrack } {}
      { ctx := protectedTrack }).map (fun r => r.2.toOption.map List.length) =
      [some 149] := by decide +kernel
  have hcanonical : (canonical protectedTrack noSamples).toOption.map List.length =
      some 96 := by decide +kernel
  have hfst : (groupRun vi64 0 [(noSamples, 0)] { ctx := protectedTrack } {}
      { ctx := protectedTrack }).map Prod.fst = [noSamples] := by decide +kernel
  generalize hgen : groupRun vi64 0 [(noSamples, 0)] { ctx := protectedTrack } {}
    { ctx := protectedTrack } = run at hrun hfst
  obtain ⟨r, rfl⟩ := List.length_eq_one_iff.mp (by simpa using congrArg List.length hfst)
  obtain ⟨bytes, hr, hbytes⟩ := h protectedTrack [(noSamples, 0)] (by simp)
    (by decide +kernel) r (by simp [hgen])
  simp only [List.map_cons, List.map_nil, List.cons.injEq, and_true] at hrun hfst
  rw [hfst] at hbytes
  simp only [hr, hbytes, Except.toOption, Option.map_some, Option.some.injEq] at hrun hcanonical
  omega

end AioMoqt.Media.Locmaf
