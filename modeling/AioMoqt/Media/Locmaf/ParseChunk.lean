import AioMoqt.Media.Locmaf.Chunk

/-!
# `parse_chunk`

`_read_chunk_boxes` reads one CMAF chunk (genBoxes, one moof, one mdat).  Any
`LocmafMalformed`, `struct.error` or `IndexError` on the way means the chunk is
outside the field model, so the reader is an `Option` throughout.
-/

namespace AioMoqt.Media.Locmaf

open AioMoqt.Lib AioMoqt.Lib.BigEndian

/-- `_walk` with its exceptions read as "outside the field model". -/
def boxesOf (data : Bytes) (start stop : Nat) : Option (List Box) :=
  (walk data start stop).toOption

/-- `data[start:stop]`. -/
def slice (data : Bytes) (start stop : Nat) : Bytes := (data.drop start).take (stop - start)

/-- The top level of a chunk: genBoxes, the moof, the mdat payload. -/
structure TopLevel where
  genBoxes : List GenBox
  moof : Box
  mdat : Bytes

def readTop (chunk : Bytes) : Option TopLevel := do
  let top ← boxesOf chunk 0 chunk.length
  -- an ISO size escape: a 32-bit size of 0 or 1
  guard (top.all fun b => 8 ≤ ofBE ((chunk.drop b.start).take 4))
  let gen := top.takeWhile fun b => b.btype ≠ fourCC "moof"
  match top.drop gen.length with
  | [moof, mdat] =>
      guard (mdat.btype = fourCC "mdat" ∧ gen.all fun b => b.btype ≠ fourCC "mdat")
      return {
        genBoxes := gen.map fun b => ⟨b.btype, slice chunk (b.start + 8) b.stop⟩
        moof
        mdat := slice chunk mdat.body mdat.stop }
  | _ => none

/-- Boxes a traf of the field model may hold. -/
def trafModel : List Bytes := ["tfhd", "tfdt", "trun", "senc", "saiz", "saio"].map fourCC

/-- The boxes of the one traf, each at most once. -/
def readTraf (chunk : Bytes) (moof : Box) : Option (List Box) := do
  let kids ← boxesOf chunk moof.body moof.stop
  guard (kids.all fun k => k.btype = fourCC "mfhd" ∨ k.btype = fourCC "traf")
  match kids.filter fun k => k.btype = fourCC "traf" with
  | [traf] =>
      let boxes ← boxesOf chunk traf.body traf.stop
      guard (boxes.all (fun k => k.btype ∈ trafModel) ∧ (boxes.map (·.btype)).Nodup)
      return boxes
  | _ => none

def boxNamed (boxes : List Box) (name : String) : Option Box :=
  boxes.find? fun b => b.btype = fourCC name

/-- Sample description index and sample defaults in effect. -/
structure TfhdValues where
  sdi : Nat
  duration : Nat
  size : Nat
  flags : Nat

/-- An optional 32-bit tfhd member: its value and the position after it. -/
def tfhdMember (chunk : Bytes) (stop : Nat) (present : Bool) (default pos : Nat) :
    Option (Nat × Nat) :=
  if present then
    if stop < pos + 4 then none else (u32At chunk pos).map fun v => (v, pos + 4)
  else some (default, pos)

def readTfhd (chunk : Bytes) (tfhd : Box) (ctx : TrackContext) : Option TfhdValues := do
  guard (8 ≤ tfhd.stop - tfhd.body)
  let word ← u32At chunk tfhd.body
  let trackId ← u32At chunk (tfhd.body + 4)
  -- base-data-offset, or another track
  guard (¬ word.testBit 0 ∧ trackId = ctx.trackId)
  let (sdi, pos) ← tfhdMember chunk tfhd.stop (word.testBit 1)
    ctx.defaultSampleDescriptionIndex (tfhd.body + 8)
  let (duration, pos) ← tfhdMember chunk tfhd.stop (word.testBit 3)
    ctx.defaultSampleDuration pos
  let (size, pos) ← tfhdMember chunk tfhd.stop (word.testBit 4) ctx.defaultSampleSize pos
  let (flags, _) ← tfhdMember chunk tfhd.stop (word.testBit 5) ctx.defaultSampleFlags pos
  return ⟨sdi, duration, size, flags⟩

def readTfdt (chunk : Bytes) (tfdt : Box) : Option Nat := do
  let version ← chunk[tfdt.body]?
  if version = 1 then
    guard (12 ≤ tfdt.stop - tfdt.body)
    u64At chunk (tfdt.body + 4)
  else
    guard (8 ≤ tfdt.stop - tfdt.body)
    u32At chunk (tfdt.body + 4)

/-- One row of a trun. -/
structure Sample where
  duration : Nat
  size : Nat
  flags : Nat
  cto : Int

/-- The flag bits of a trun that shape its rows. -/
structure TrunShape where
  durations : Bool
  sizes : Bool
  flags : Bool
  ctos : Bool
  signed : Bool
  first : Option Nat

/-- A 32-bit trun column where present, else its default. -/
def column (chunk : Bytes) (present : Bool) (default pos : Nat) : Option (Nat × Nat) :=
  if present then (u32At chunk pos).map fun v => (v, pos + 4) else some (default, pos)

/-- Row `i` of a trun at `pos`, and the position after it. -/
def readSample (chunk : Bytes) (shape : TrunShape) (tf : TfhdValues) (i pos : Nat) :
    Option (Sample × Nat) := do
  let (duration, pos) ← column chunk shape.durations tf.duration pos
  let (size, pos) ← column chunk shape.sizes tf.size pos
  let (flags, pos) ← column chunk shape.flags
    (if i = 0 then shape.first.getD tf.flags else tf.flags) pos
  let (word, pos) ← column chunk shape.ctos 0 pos
  let cto : Int := if shape.signed then toI32 word else word
  -- receivers take 32-bit signed composition offsets
  guard (cto ≤ i32Max)
  return (⟨duration, size, flags, cto⟩, pos)

def readSamples (chunk : Bytes) (shape : TrunShape) (tf : TfhdValues) :
    Nat → Nat → Nat → Option (List Sample)
  | 0, _, _ => some []
  | count + 1, i, pos => do
      let (sample, pos) ← readSample chunk shape tf i pos
      let rest ← readSamples chunk shape tf count (i + 1) pos
      return sample :: rest

def readTrun (chunk : Bytes) (trun moof : Box) (tf : TfhdValues) : Option (List Sample) := do
  guard (8 ≤ trun.stop - trun.body)
  let version ← chunk[trun.body]?
  let tr ← u32At chunk trun.body
  let n ← u32At chunk (trun.body + 4)
  guard (n ≤ maxSampleCount ∧ tr.testBit 0)
  let columns := [8, 9, 10, 11].countP fun bit => tr.testBit bit
  guard (12 + (if tr.testBit 2 then 4 else 0) + n * (4 * columns) ≤ trun.stop - trun.body)
  -- data_offset must point at the payload
  let offset ← u32At chunk (trun.body + 8)
  guard (toI32 offset = (moof.stop - moof.start + 8 : Nat))
  let (first, pos) ← (if tr.testBit 2
    then (u32At chunk (trun.body + 12)).map fun v => (some v, trun.body + 16)
    else some (none, trun.body + 12) : Option (Option Nat × Nat))
  readSamples chunk
    { durations := tr.testBit 8, sizes := tr.testBit 9, flags := tr.testBit 10
      ctos := tr.testBit 11, signed := version ≠ 0, first } tf n 0 pos

/-! ## Sample encryption -/

/-- What a senc box holds under one reading of its IV size. -/
structure Senc where
  ivs : Bytes
  counts : List Nat
  clear : List Nat
  protectedBytes : List Nat

/-- `c` subsample entries at `pos`. -/
def readSubsamples (chunk : Bytes) : Nat → Nat → Option (List (Nat × Nat))
  | 0, _ => some []
  | c + 1, pos => do
      let clear ← u16At chunk pos
      let prot ← u32At chunk (pos + 2)
      let rest ← readSubsamples chunk c (pos + 6)
      return (clear, prot) :: rest

/-- `n` senc entries of `iv`-byte IVs from `pos`, and the position after them;
`none` when they run past `stop`. -/
def readEntries (chunk : Bytes) (stop iv : Nat) (mapped : Bool) :
    Nat → Nat → Option (Senc × Nat)
  | 0, pos => some (⟨[], [], [], []⟩, pos)
  | n + 1, pos => do
      guard (pos + iv ≤ stop)
      let head := slice chunk pos (pos + iv)
      if mapped then
        guard (pos + iv + 2 ≤ stop)
        let c ← u16At chunk (pos + iv)
        guard (pos + iv + 2 + 6 * c ≤ stop)
        let subs ← readSubsamples chunk c (pos + iv + 2)
        let (rest, after) ← readEntries chunk stop iv mapped n (pos + iv + 2 + 6 * c)
        return (⟨head ++ rest.ivs, c :: rest.counts, subs.map Prod.fst ++ rest.clear,
          subs.map Prod.snd ++ rest.protectedBytes⟩, after)
      else
        let (rest, after) ← readEntries chunk stop iv mapped n (pos + iv)
        return (⟨head ++ rest.ivs, rest.counts, rest.clear, rest.protectedBytes⟩, after)

/-- The first sample whose subsample map does not add up to its size. -/
def uncovered : Nat → List Nat → List Nat → List Nat → List Nat → Option Nat
  | _, [], _, _, _ => none
  | _, _ :: _, [], _, _ => none
  | i, c :: counts, size :: sizes, clear, prot =>
      if c ≠ 0 ∧ (clear.take c).sum + (prot.take c).sum ≠ size then some i
      else uncovered (i + 1) counts sizes (clear.drop c) (prot.drop c)

/-- The IV sizes a senc is tried with: the tenc default, then 8, 16 and 0. -/
def ivCandidates (ctx : TrackContext) : List Nat := [ctx.ivSize, 8, 16, 0].eraseDups

/-- The first IV size that tiles the box, with the entries read under it. -/
def tilingIv (chunk : Bytes) (senc : Box) (mapped : Bool) (n : Nat) :
    List Nat → Option (Nat × Senc)
  | [] => none
  | iv :: ivs =>
      match readEntries chunk senc.stop iv mapped n (senc.body + 8) with
      | some (entries, pos) =>
          if pos = senc.stop then some (iv, entries) else tilingIv chunk senc mapped n ivs
      | none => tilingIv chunk senc mapped n ivs

/-- senc as `(iv_size, ivs, counts, clear, protected)`; counts is `none` where
the box maps no subsamples. -/
def readSenc (chunk : Bytes) (senc : Box) (sizes : List Nat) (ctx : TrackContext) :
    Option (Nat × Bytes × Option (List Nat) × List Nat × List Nat) := do
  guard (8 ≤ senc.stop - senc.body)
  let sflags ← u32At chunk senc.body
  let count ← u32At chunk (senc.body + 4)
  guard (¬ sflags.testBit 0 ∧ count = sizes.length)
  let mapped := sflags.testBit 1
  let (iv, entries) ← tilingIv chunk senc mapped sizes.length (ivCandidates ctx)
  if mapped ∧ sizes ≠ [] then
    guard (entries.counts.all (fun c => iv + 2 + 6 * c ≤ 255) ∧
      uncovered 0 entries.counts sizes entries.clear entries.protectedBytes = none)
    return (iv, entries.ivs, some entries.counts, entries.clear, entries.protectedBytes)
  else return (iv, entries.ivs, none, [], [])

/-- `(effective values, senc IV size or none without senc)`, or `none` outside
the field model. -/
def readChunk (chunk : Bytes) (ctx : TrackContext) :
    Option (EffectiveValues × Option Nat) := do
  let top ← readTop chunk
  let boxes ← readTraf chunk top.moof
  let tfhd ← boxNamed boxes "tfhd"
  let tfdt ← boxNamed boxes "tfdt"
  let trun ← boxNamed boxes "trun"
  let tf ← readTfhd chunk tfhd ctx
  let bmdt ← readTfdt chunk tfdt
  let samples ← readTrun chunk trun top.moof tf
  let sizes := samples.map (·.size)
  guard (sizes.sum = top.mdat.length)
  let eff : EffectiveValues :=
    { bmdt
      sampleDescriptionIndex := tf.sdi
      durations := samples.map (·.duration)
      sizes
      flags := samples.map (·.flags)
      ctos := samples.map (·.cto)
      ivSize := 0
      ivs := []
      subsampleCounts := none
      clearBytes := []
      protectedBytes := []
      genBoxes := top.genBoxes
      mdat := top.mdat }
  match boxNamed boxes "senc" with
  | none =>
      guard (¬ (ctx.isProtected ∧ ctx.ivSize ≠ 0 ∧ samples ≠ []))
      return (eff, none)
  | some senc =>
      guard ctx.isProtected
      let (iv, ivs, counts, clear, prot) ← readSenc chunk senc sizes ctx
      return ({ eff with
        ivSize := iv, ivs, subsampleCounts := counts, clearBytes := clear
        protectedBytes := prot }, some iv)

/-- Effective values of a CMAF chunk, or `none` outside the LOCMAF field model. -/
def parseChunk (chunk : Bytes) (ctx : TrackContext) : Option EffectiveValues :=
  (readChunk chunk ctx).map Prod.fst

end AioMoqt.Media.Locmaf
