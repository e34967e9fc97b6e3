import AioMoqt.Media.Locmaf.Object

/-!
# The LOCMAF encoder and decoder

The in-group reference both sides keep, the receiver's delta application and
expansion with every must-reject rule, and the per-track `LocmafDecoder.push` and
`LocmafEncoder.encode`.
-/

namespace AioMoqt.Media.Locmaf

open AioMoqt.Lib AioMoqt.Lib.BigEndian

/-! ## In-group state -/

/-- The reference kept per MOQT group: the previous chunk's represented fields,
the decode time the next chunk derives, and the last Object ID (-1 before any). -/
structure GroupState where
  fields : Option Fields := none
  nextBmdt : Option Nat := none
  lastObjectId : Int := -1

namespace GroupState

/-- No reference: the next moof-carrying Object must be full. -/
def reset (state : GroupState) : GroupState :=
  { state with fields := none, nextBmdt := none }

def store (fields : Fields) (eff : EffectiveValues) (objectId : Nat) : GroupState :=
  let next := eff.bmdt + eff.durations.sum
  { fields := some fields
    nextBmdt := if next ≤ u64Max then some next else none
    lastObjectId := objectId }

end GroupState

/-! ## Receiver -/

/-- A scalar's delta, applied to the reference. -/
def applyScalar (wire : WireFields) (id : ScalarId) (cur : Fields) :
    Except LocmafError Fields :=
  match wire (.scalar id) with
  | none => .ok cur
  | some z =>
      let v : Int := ((cur (.scalar id)).getD 0 : Nat) + unzigzag z
      let fid := id.code
      if v < 0 ∨ (u64Max : Int) < v then .error (.malformed s!"field {fid} delta yields {v}")
      else .ok (Function.update cur (.scalar id) (some v.toNat))

/-- `prev[i] + unzigzag(deltas[i])`, a missing previous element counting as 0. -/
def addDeltas : List Int → List Nat → List Int
  | _, [] => []
  | [], z :: zs => unzigzag z :: addDeltas [] zs
  | p :: ps, z :: zs => (p + unzigzag z) :: addDeltas ps zs

/-- A list after its delta (or inherited, cut to `want`), `none` when the field
stays absent.  Errors name the field. -/
def deltaList (fid want : Nat) (signed : Bool) (prev : Option (List Int))
    (deltas : Option (List Nat)) : Except LocmafError (Option (List Int)) :=
  match deltas with
  | none =>
      match prev with
      | none => .ok none
      | some prev =>
          let have_ := prev.length
          if have_ < want then
            .error (.malformed
              s!"inherited field {fid} has {have_} elements, need {want}")
          else .ok (some (prev.take want))
  | some deltas =>
      let carried := deltas.length
      if carried ≠ want then
        .error (.malformed s!"field {fid} carries {carried} elements, expected {want}")
      else
        let out := addDeltas (prev.getD []) deltas
        match out.findIdx? (fun v => v < 0 ∨ (u64Max : Int) < v), signed with
        | some i, false =>
            let v := out.getD i 0
            .error (.malformed s!"field {fid} element {i} delta yields {v}")
        | _, _ => .ok (some out)

/-- An unsigned list's delta. -/
def applyListed (wire : WireFields) (id : ListId) (want : Nat) (cur : Fields) :
    Except LocmafError Fields := do
  let out ← deltaList id.code want false
    ((cur (.list id)).map (·.map Int.ofNat)) (wire (.list id))
  return Function.update cur (.list id) (out.map (·.map Int.toNat))

/-- The composition offsets' delta. -/
def applyOffsets (wire : WireFields) (want : Nat) (cur : Fields) :
    Except LocmafError Fields := do
  let out ← deltaList (FieldId.code .compositionOffsets) want true
    (cur .compositionOffsets) (wire .compositionOffsets)
  return Function.update cur .compositionOffsets out

/-- The IVs are carried whole. -/
def applyIvs (wire : WireFields) (cur : Fields) : Fields :=
  match wire .ivs with
  | some ivs => Function.update cur .ivs (some ivs)
  | none => cur

/-- The reference without the deleted ids. -/
def dropDeleted (cur : Fields) (deleted : List Nat) : Fields :=
  fun f => if f.code ∈ deleted then none else cur f

/-- The scalars a delta header may change besides the sample count. -/
def deltaScalars : List ScalarId :=
  [.sampleDescriptionIndex, .defaultSampleDuration, .defaultSampleSize, .defaultSampleFlags,
    .firstSampleFlags, .ivSize]

/-- Deletions first, then the sample count (it fixes every list length), the
other scalars, the lists and the IVs; the decode time is derived. -/
def applyDelta (wire : WireFields) (ref : Fields) (nextBmdt : Option Nat) :
    Except LocmafError Fields := do
  let cur := dropDeleted ref ((wire .deleted).getD [])
  let cur ← applyScalar wire .sampleCount cur
  let n := (cur (.scalar .sampleCount)).getD 0
  if maxSampleCount < n then throw (.malformed s!"sample count {n} exceeds the limit")
  let cur ← deltaScalars.foldlM (fun cur id => applyScalar wire id cur) cur
  let cur ← applyListed wire .sampleDurations n cur
  let cur ← applyListed wire .sampleFlags n cur
  let cur ← applyListed wire .sampleSizes (n - 1) cur
  let cur ← applyListed wire .subsampleCounts n cur
  let total := ((cur (.list .subsampleCounts)).getD []).sum
  if maxSampleCount < total then throw (.malformed "subsample total exceeds the limit")
  let cur ← applyListed wire .clearBytes total cur
  let cur ← applyListed wire .protectedBytes total cur
  let cur ← applyOffsets wire n cur
  let cur := applyIvs wire cur
  match nextBmdt with
  | none => throw (.malformed "cannot derive the decode time of a delta chunk")
  | some bmdt => return Function.update cur (.scalar .baseMediaDecodeTime) (some bmdt)

/-- A list of 32-bit values, one a sample. -/
def u32List (values : List Nat) (fid n : Nat) : Except LocmafError (List Nat) :=
  let count := values.length
  if count ≠ n then
    .error (.malformed s!"field {fid} has {count} elements for {n} samples")
  else if values.any (u32Max < ·) then
    .error (.malformed s!"field {fid} element overflows 32 bits")
  else .ok values

def u32Scalar (fields : Fields) (id : ScalarId) (default : Nat) : Except LocmafError Nat :=
  let v := (fields (.scalar id)).getD default
  let fid := id.code
  if u32Max < v then .error (.malformed s!"field {fid} overflows 32 bits") else .ok v

/-- Sample sizes: listed with the last one derived, a default, or derived from
the payload length `p`. -/
def expandSizes (fields : Fields) (n p : Nat) (ctx : TrackContext) :
    Except LocmafError (List Nat) :=
  match fields (.list .sampleSizes) with
  | some listed =>
      let count := listed.length
      if count ≠ n - 1 then .error (.malformed s!"{count} listed sizes for {n} samples")
      else if listed.any (u32Max < ·) then .error (.malformed "sample size overflows 32 bits")
      else if n = 0 then .ok listed
      else if p < listed.sum then .error (.malformed "listed sizes exceed the mdat payload")
      else if u32Max < p - listed.sum then
        .error (.malformed "derived last size overflows 32 bits")
      else .ok (listed ++ [p - listed.sum])
  | none =>
      let size := match fields (.scalar .defaultSampleSize) with
        | some size => some size
        | none => if n ≠ 1 ∧ ctx.defaultSampleSize ≠ 0 then some ctx.defaultSampleSize
            else none
      match size with
      | some size =>
          if u32Max < size then .error (.malformed "default sample size overflows 32 bits")
          else if n * size ≠ p then
            .error (.malformed
              s!"{n} samples of {size} bytes do not match the {p}-byte mdat payload")
          else .ok (List.replicate n size)
      | none =>
          if n = 1 then
            if u32Max < p then .error (.malformed "sample size overflows 32 bits")
            else .ok [p]
          else if p = 0 then .ok (List.replicate n 0)
          else .error (.malformed s!"no sample size information for {n} samples")

def expandDurations (fields : Fields) (n default : Nat) : Except LocmafError (List Nat) :=
  match fields (.list .sampleDurations) with
  | some values => u32List values (ListId.code .sampleDurations) n
  | none => .ok (List.replicate n default)

/-- The first sample's own flags, where the header has them. -/
def firstFlags (fields : Fields) : Except LocmafError (Option Nat) :=
  match fields (.scalar .firstSampleFlags) with
  | some _ => (u32Scalar fields .firstSampleFlags 0).map some
  | none => .ok none

def expandFlags (fields : Fields) (n defaultFlags : Nat) (firstFlags : Option Nat) :
    Except LocmafError (List Nat) :=
  match fields (.list .sampleFlags) with
  | some values => u32List values (ListId.code .sampleFlags) n
  | none =>
      match n, firstFlags with
      | n + 1, some first => .ok (first :: List.replicate n defaultFlags)
      | n, _ => .ok (List.replicate n defaultFlags)

def expandOffsets (fields : Fields) (n : Nat) : Except LocmafError (List Int) :=
  match fields .compositionOffsets with
  | none => .ok (List.replicate n 0)
  | some ctos =>
      let count := ctos.length
      if count ≠ n then .error (.malformed s!"{count} composition offsets for {n} samples")
      else if ctos.any (fun c => c < i32Min ∨ i32Max < c) then
        .error (.malformed "composition offset outside 32-bit range")
      else .ok ctos

/-- Per-sample IVs under the IV size in effect. -/
def expandIvs (fields : Fields) (n ivSize : Nat) : Except LocmafError Bytes :=
  let ivs := (fields .ivs).getD []
  let count := ivs.length
  if ivs ≠ [] then
    if ivSize = 0 then .error (.malformed "IVs with a per-sample IV size of 0")
    else if count ≠ ivSize * n then
      .error (.malformed s!"{count} IV bytes for {n} samples of {ivSize}")
    else .ok ivs
  else if ivSize ≠ 0 ∧ n ≠ 0 then
    .error (.malformed s!"per-sample IV size {ivSize} but no IVs")
  else .ok []

/-- The subsample map: counts with their clear and protected byte lists. -/
def expandSubsamples (fields : Fields) (n : Nat) (sizes : List Nat) :
    Except LocmafError (Option (List Nat) × List Nat × List Nat) :=
  match fields (.list .subsampleCounts) with
  | some counts =>
      let clear := (fields (.list .clearBytes)).getD []
      let prot := (fields (.list .protectedBytes)).getD []
      let count := counts.length
      if count ≠ n then .error (.malformed s!"{count} subsample counts for {n} samples")
      else if counts.any (u16Max < ·) then
        .error (.malformed "subsample count overflows 16 bits")
      else if clear.length ≠ counts.sum ∨ prot.length ≠ counts.sum then
        .error (.malformed "subsample byte lists do not match the counts")
      else if clear.any (u16Max < ·) ∨ prot.any (u32Max < ·) then
        .error (.malformed "subsample byte count overflows its field")
      else match uncovered 0 counts sizes clear prot with
        | some i => .error (.malformed s!"subsample map does not cover sample {i}")
        | none => .ok (some counts, clear, prot)
  | none =>
      if (fields (.list .clearBytes)).isSome ∨ (fields (.list .protectedBytes)).isSome then
        .error (.malformed "subsample byte lists without subsample counts")
      else .ok (none, [], [])

/-- Fields only a protected track may carry. -/
def cencFields : List FieldId :=
  [.ivs, .list .subsampleCounts, .list .clearBytes, .list .protectedBytes, .scalar .ivSize]

/-- The encryption data of a chunk; none on an unprotected track. -/
def expandEncryption (fields : Fields) (ctx : TrackContext) (eff : EffectiveValues) :
    Except LocmafError EffectiveValues :=
  if ctx.isProtected then
    let ivSize := (fields (.scalar .ivSize)).getD ctx.ivSize
    if 255 < ivSize then .error (.malformed s!"per-sample IV size {ivSize} out of range")
    else do
      let ivs ← expandIvs fields eff.sampleCount ivSize
      let (counts, clear, prot) ← expandSubsamples fields eff.sampleCount eff.sizes
      return { eff with
        ivSize, ivs, subsampleCounts := counts, clearBytes := clear, protectedBytes := prot }
  else
    match cencFields.find? fun f => (fields f).isSome with
    | some f =>
        let fid := f.code
        .error (.malformed s!"CENC field {fid} on an unprotected track")
    | none => .ok eff

/-- Represented fields + CMAF header defaults + payload length → effective
values, applying the receiver must-reject rules. -/
def expand (fields : Fields) (gen : List GenBox) (mdat : Bytes) (ctx : TrackContext) :
    Except LocmafError EffectiveValues :=
  match fields (.scalar .sampleCount), fields (.scalar .baseMediaDecodeTime) with
  | some n, bmdt =>
      if maxSampleCount < n then .error (.malformed s!"sample count {n} exceeds the limit")
      else match bmdt with
        | none => .error (.malformed "no decode time")
        | some bmdt =>
            let p := mdat.length
            if n = 0 ∧ p ≠ 0 then
              .error (.malformed "zero samples with a non-empty mdat payload")
            else do
              let sdi ← u32Scalar fields .sampleDescriptionIndex
                ctx.defaultSampleDescriptionIndex
              let defaultDuration ← u32Scalar fields .defaultSampleDuration
                ctx.defaultSampleDuration
              let defaultFlags ← u32Scalar fields .defaultSampleFlags ctx.defaultSampleFlags
              let first ← firstFlags fields
              let durations ← expandDurations fields n defaultDuration
              let sizes ← expandSizes fields n p ctx
              let flags ← expandFlags fields n defaultFlags first
              let ctos ← expandOffsets fields n
              expandEncryption fields ctx
                { bmdt, sampleDescriptionIndex := sdi, durations, sizes, flags, ctos
                  ivSize := 0, ivs := [], subsampleCounts := none, clearBytes := []
                  protectedBytes := [], genBoxes := gen, mdat }
  | none, _ => .error (.malformed "no sample count")

/-- The fields a moof-carrying Object stands for, before expansion. -/
def objectFields (full : Bool) (wire : WireFields) (state : GroupState) (objectId : Nat) :
    Except LocmafError Fields :=
  if full then
    let fields : Fields
      | .compositionOffsets => (wire .compositionOffsets).map (·.map unzigzag)
      | .scalar id => wire (.scalar id)
      | .list id => wire (.list id)
      | .ivs => wire .ivs
      | .deleted => wire .deleted
    match [ScalarId.sampleCount, .baseMediaDecodeTime].find?
        fun id => (fields (.scalar id)).isNone with
    | some id =>
        let fid := id.code
        .error (.malformed s!"full header lacks field {fid}")
    | none => .ok fields
  else
    match state.fields with
    | none => .error (.malformed "delta header without an in-group reference")
    | some ref =>
        let last := state.lastObjectId
        if (objectId : Int) ≠ last + 1 then
          .error (.malformed s!"object id gap before a delta header ({last} -> {objectId})")
        else applyDelta wire ref state.nextBmdt

/-- `(canonical CMAF chunk, effective values)` for a moof-carrying Object, the
boxes for a rawBoxes Object, with the group state after it.  A rejection clears
the group's reference. -/
def reconstruct (obj : LocmafObject) (state : GroupState) (ctx : TrackContext)
    (objectId : Nat) :
    Except LocmafError (Bytes × Option EffectiveValues) × GroupState :=
  match obj with
  | .raw boxes => (.ok (boxes, none), { state.reset with lastObjectId := objectId })
  | .moof full wire gen mdat =>
      let result : Except LocmafError (Fields × EffectiveValues × Bytes) := do
        let fields ← objectFields full wire state objectId
        let eff ← expand fields gen mdat ctx
        let chunk ← buildChunk eff ctx
        return (fields, eff, chunk)
      match result with
      | .ok (fields, eff, chunk) => (.ok (chunk, some eff), .store fields eff objectId)
      | .error (.malformed reason) => (.error (.malformed reason), state.reset)
      | .error e => (.error e, state)

/-- Groups whose reference a receiver keeps. -/
def maxTrackedGroups : Nat := 8

/-- Per-track receiver: one reference per recent group, oldest first. -/
structure LocmafDecoder where
  ctx : TrackContext
  groups : List (Nat × GroupState) := []

namespace LocmafDecoder

def ofInit (init : Bytes) : Except LocmafError LocmafDecoder := do
  let ctx ← TrackContext.fromInit init
  return { ctx }

def state? (dec : LocmafDecoder) (groupId : Nat) : Option GroupState :=
  (dec.groups.find? fun g => g.1 = groupId).map Prod.snd

/-- Replace a tracked group's state. -/
def setState (dec : LocmafDecoder) (groupId : Nat) (state : GroupState) : LocmafDecoder :=
  { dec with groups := dec.groups.map fun g => if g.1 = groupId then (groupId, state) else g }

/-- The decoder tracking `groupId`, the oldest groups dropped past the bound. -/
def track (dec : LocmafDecoder) (groupId : Nat) : LocmafDecoder :=
  match dec.state? groupId with
  | some _ => dec
  | none =>
      let groups := dec.groups ++ [(groupId, {})]
      { dec with groups := groups.drop (groups.length - maxTrackedGroups) }

/-- The chunk for one Object, or the rejection, and the decoder after it. -/
def push (code : PrefixCode) (dec : LocmafDecoder) (groupId objectId : Nat)
    (payload : Bytes) : Except LocmafError Bytes × LocmafDecoder :=
  let state := (dec.state? groupId).getD {}
  let dec := dec.track groupId
  match parseObject code payload with
  | .error e => (.error e, dec.setState groupId state.reset)
  | .ok obj =>
      let (result, state) := reconstruct obj state dec.ctx objectId
      (result.map Prod.fst, dec.setState groupId state)

end LocmafDecoder

/-! ## Sender -/

/-- Canonical encoding of one track's CMAF chunks. -/
structure LocmafEncoder where
  ctx : TrackContext
  rawFallbacks : Nat := 0

namespace LocmafEncoder

/-- A full header opens a group, follows an Object ID gap and re-anchors a
decode-time break. -/
def sendsFull (state : GroupState) (eff : EffectiveValues) (objectId : Nat) : Bool :=
  state.fields.isNone || (objectId : Int) ≠ state.lastObjectId + 1 ||
    state.nextBmdt ≠ some eff.bmdt

def headerWire (fields : Fields) (state : GroupState) (eff : EffectiveValues)
    (objectId : Nat) : WireFields :=
  match state.fields, sendsFull state eff objectId with
  | some prev, false => deltaWire fields prev
  | _, _ => fullWire fields

/-- The Object of one chunk, with the encoder and group state after it. -/
def encode (code : PrefixCode) (enc : LocmafEncoder) (chunk : Bytes) (state : GroupState)
    (objectId : Nat) : Except LocmafError (Bytes × LocmafEncoder × GroupState) :=
  match readChunk chunk enc.ctx with
  | none => do
      let out ← serializeObject code (.raw chunk)
      return (out, { enc with rawFallbacks := enc.rawFallbacks + 1 },
        { state.reset with lastObjectId := objectId })
  | some (eff, sencIv) => do
      let fields := represent eff sencIv enc.ctx
      let out ← serializeObject code
        (.moof (sendsFull state eff objectId) (headerWire fields state eff objectId)
          eff.genBoxes eff.mdat)
      return (out, enc, .store fields eff objectId)

end LocmafEncoder

end AioMoqt.Media.Locmaf
