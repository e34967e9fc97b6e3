import AioMoqt.Media.Locmaf.ParseChunk

/-!
# `build_chunk`

The canonical CMAF chunk of a set of effective values: each genBox wrapped, then
`moof{mfhd, traf{tfhd, tfdt, trun[, saiz, saio, senc]}}` and `mdat`.
-/

namespace AioMoqt.Media.Locmaf

open AioMoqt.Lib AioMoqt.Lib.BigEndian

/-- All entries equal. -/
def uniform : List Nat → Bool
  | [] => true
  | x :: xs => xs.all (· == x)

/-- `v[1:]` share one value that differs from `v[0]`; more than one entry. -/
def allButFirst : List Nat → Bool
  | x :: y :: rest => x != y && rest.all (· == y)
  | _ => false

def checkEffective (eff : EffectiveValues) : Except LocmafError Unit :=
  let n := eff.sampleCount
  if ¬ (eff.sizes.length = n ∧ eff.flags.length = n ∧ eff.ctos.length = n) then
    .error (.malformed "per-sample vectors disagree on the sample count")
  else if eff.sizes.sum ≠ eff.mdat.length then
    .error (.malformed "sample sizes do not cover the mdat payload")
  else if (eff.durations ++ eff.sizes ++ eff.flags).any (u32Max < ·) ∨
      u32Max < eff.sampleDescriptionIndex then
    .error (.malformed "per-sample value outside 32 bits")
  else if eff.ctos.any (fun c => c < i32Min ∨ i32Max < c) then
    .error (.malformed "composition offset outside 32-bit range")
  else if eff.ivs.length ≠ eff.ivSize * n then
    .error (.malformed "IV bytes do not match the per-sample IV size")
  else if (match eff.subsampleCounts with
      | none => false
      | some counts => counts.length ≠ n ∨ eff.clearBytes.length ≠ counts.sum ∨
          eff.protectedBytes.length ≠ counts.sum) then
    .error (.malformed "subsample vectors disagree")
  else if u64Max < eff.bmdt then .error (.malformed "decode time outside 64 bits")
  else if 0xFFFFFFF7 < eff.mdat.length then
    .error (.malformed "mdat payload exceeds a 32-bit box size")
  else .ok ()

/-- The presence decisions of a canonical moof. -/
structure ChunkShape where
  sdi : Option Nat := none
  defDur : Option Nat := none
  defSize : Option Nat := none
  defFlags : Option Nat := none
  durations : Bool := false
  sizes : Bool := false
  flags : Bool := false
  firstFlags : Bool := false
  ctos : Bool := false
  version : Nat := 0

/-- The value where it differs from the trex default. -/
def unlessDefault (default : Nat) : List Nat → Option Nat
  | v :: _ => if v ≠ default then some v else none
  | [] => none

def chunkShape (eff : EffectiveValues) (ctx : TrackContext) : ChunkShape :=
  let sdi := if eff.sampleDescriptionIndex ≠ ctx.defaultSampleDescriptionIndex
    then some eff.sampleDescriptionIndex else none
  if eff.sampleCount = 0 then { sdi }
  else
    { sdi
      defDur := if uniform eff.durations
        then unlessDefault ctx.defaultSampleDuration eff.durations else none
      durations := !uniform eff.durations
      defSize := if uniform eff.sizes
        then unlessDefault ctx.defaultSampleSize eff.sizes else none
      sizes := !uniform eff.sizes
      defFlags := if uniform eff.flags then unlessDefault ctx.defaultSampleFlags eff.flags
        else if allButFirst eff.flags
        then unlessDefault ctx.defaultSampleFlags (eff.flags.drop 1) else none
      firstFlags := !uniform eff.flags && allButFirst eff.flags
      flags := !uniform eff.flags && !allButFirst eff.flags
      ctos := eff.ctos.any (· ≠ 0)
      version := if eff.ctos.any (· < 0) then 1 else 0 }

/-- The optional tfhd members in wire order. -/
def ChunkShape.tfOpts (shape : ChunkShape) : List Nat :=
  [shape.sdi, shape.defDur, shape.defSize, shape.defFlags].filterMap id

def ChunkShape.tfFlags (shape : ChunkShape) : Nat :=
  0x020000 + (if shape.sdi.isSome then 0x02 else 0) + (if shape.defDur.isSome then 0x08 else 0)
    + (if shape.defSize.isSome then 0x10 else 0) + (if shape.defFlags.isSome then 0x20 else 0)

def ChunkShape.trFlags (shape : ChunkShape) : Nat :=
  0x001 + (if shape.firstFlags then 0x004 else 0) + (if shape.durations then 0x100 else 0)
    + (if shape.sizes then 0x200 else 0) + (if shape.flags then 0x400 else 0)
    + (if shape.ctos then 0x800 else 0)

/-- Bytes of one trun row. -/
def ChunkShape.rowSize (shape : ChunkShape) : Nat :=
  4 * (shape.durations.toNat + shape.sizes.toNat + shape.flags.toNat + shape.ctos.toNat)

/-- `pack('>I4s', size, name)`. -/
def boxHeader (size : Nat) (name : Bytes) : Bytes := toBE 4 size ++ name

/-- The trun rows: the present columns of each sample, interleaved. -/
def trunRows (shape : ChunkShape) (eff : EffectiveValues) : Bytes :=
  let rows := (eff.durations.zip eff.sizes).zip (eff.flags.zip eff.ctos)
  rows.flatMap fun ((duration, size), (flags, cto)) =>
    (if shape.durations then toBE 4 duration else []) ++
    (if shape.sizes then toBE 4 size else []) ++
    (if shape.flags then toBE 4 flags else []) ++
    (if shape.ctos then toBE 4 (cto % 2 ^ 32).toNat else [])

/-- Auxiliary info sizes, one a sample. -/
def auxSizes (eff : EffectiveValues) : List Nat :=
  match eff.subsampleCounts with
  | none => List.replicate eff.sampleCount eff.ivSize
  | some counts => counts.map fun c => eff.ivSize + 2 + 6 * c

/-- `pack('>HI', clear, protected)`; a value outside its member is a `struct.error`. -/
def packSubsample (clear prot : Nat) : Except LocmafError Bytes :=
  if u16Max < clear ∨ u32Max < prot then .error .struct
  else .ok (toBE 2 clear ++ toBE 4 prot)

/-- The senc entries of `n` samples. -/
def sencEntries (iv : Nat) : Nat → Bytes → Option (List Nat) → List (Nat × Nat) →
    Except LocmafError Bytes
  | 0, _, _, _ => .ok []
  | n + 1, ivs, none, _ => do
      let rest ← sencEntries iv n (ivs.drop iv) none []
      return ivs.take iv ++ rest
  | n + 1, ivs, some counts, subs => do
      let c := counts.headD 0
      if u16Max < c then throw .struct
      let packed ← (subs.take c).mapM fun (clear, prot) => packSubsample clear prot
      let rest ← sencEntries iv n (ivs.drop iv) (some counts.tail) (subs.drop c)
      return ivs.take iv ++ toBE 2 c ++ packed.flatten ++ rest

/-- One wrapped genBox. -/
def packGenBox (box : GenBox) : Except LocmafError Bytes :=
  let name := bytesRepr box.name
  if box.name.length ≠ 4 then .error (.malformed s!"genBox name {name} is not a FourCC")
  else if u32Max < 8 + box.payload.length then
    .error (.malformed s!"genBox {name} exceeds a 32-bit box size")
  else .ok (boxHeader (8 + box.payload.length) box.name ++ box.payload)

/-- Canonical encryption boxes are written when the samples have IVs or a map. -/
def cenc (eff : EffectiveValues) : Bool :=
  decide (0 < eff.ivSize) || eff.subsampleCounts.isSome

/-- saiz, saio and senc; `sencAt` is the senc's offset from the moof. -/
def cencBoxes (eff : EffectiveValues) (sencAt : Nat) : Except LocmafError Bytes := do
  let n := eff.sampleCount
  let aux := auxSizes eff
  let saizSize := 17 + if uniform aux then 0 else n
  let entries ← sencEntries eff.ivSize n eff.ivs eff.subsampleCounts
    (eff.clearBytes.zip eff.protectedBytes)
  return boxHeader saizSize (fourCC "saiz") ++ toBE 4 0 ++
    (if uniform aux then toBE 1 (aux.headD 0) ++ toBE 4 n
      else toBE 1 0 ++ toBE 4 n ++ aux.map UInt8.ofNat) ++
    boxHeader 20 (fourCC "saio") ++ toBE 4 0 ++ toBE 4 1 ++ toBE 4 (sencAt + 16) ++
    boxHeader (16 + aux.sum) (fourCC "senc") ++
    toBE 4 (if eff.subsampleCounts.isSome then 2 else 0) ++ toBE 4 n ++ entries

/-- The canonical CMAF chunk.  Every presence decision follows the effective
values and the trex defaults alone. -/
def buildChunk (eff : EffectiveValues) (ctx : TrackContext) : Except LocmafError Bytes := do
  checkEffective eff
  let n := eff.sampleCount
  let shape := chunkShape eff ctx
  let tfhdSize := 16 + 4 * shape.tfOpts.length
  let trunSize := 20 + (if shape.firstFlags then 4 else 0) + n * shape.rowSize
  let aux := auxSizes eff
  if cenc eff ∧ aux.any (255 < ·) then
    throw (.malformed "aux info size exceeds the 8-bit saiz limit")
  let saizSize := 17 + if uniform aux then 0 else n
  let sencAt := 8 + 16 + 8 + tfhdSize + 20 + trunSize + saizSize + 20
  let trafSize := 8 + tfhdSize + 20 + trunSize +
    if cenc eff then saizSize + 20 + (16 + aux.sum) else 0
  let moofSize := 24 + trafSize
  if 0x7FFFFFFF < moofSize + 8 then
    throw (.malformed "moof too large for trun data_offset")
  let gen ← eff.genBoxes.mapM packGenBox
  let encryption ← if cenc eff then cencBoxes eff sencAt else pure []
  return gen.flatten ++
    boxHeader moofSize (fourCC "moof") ++
    boxHeader 16 (fourCC "mfhd") ++ toBE 4 0 ++ toBE 4 0 ++
    boxHeader trafSize (fourCC "traf") ++
    boxHeader tfhdSize (fourCC "tfhd") ++ toBE 4 shape.tfFlags ++ toBE 4 ctx.trackId ++
    shape.tfOpts.flatMap (toBE 4) ++
    boxHeader 20 (fourCC "tfdt") ++ toBE 4 (2 ^ 24) ++ toBE 8 eff.bmdt ++
    boxHeader trunSize (fourCC "trun") ++
    toBE 4 (shape.version * 2 ^ 24 + shape.trFlags) ++ toBE 4 n ++ toBE 4 (moofSize + 8) ++
    (if shape.firstFlags then toBE 4 (eff.flags.headD 0) else []) ++
    trunRows shape eff ++ encryption ++
    boxHeader (8 + eff.mdat.length) (fourCC "mdat") ++ eff.mdat

end AioMoqt.Media.Locmaf
