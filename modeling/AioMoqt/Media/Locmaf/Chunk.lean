import AioMoqt.Buffer

/-!
# CMAF chunks as LOCMAF reads them

`TrackContext.from_init` and `parse_chunk` of `media/locmaf.py`: the values a
codec takes from the CMAF header, and the effective values of one chunk, or
nothing when the chunk falls outside the LOCMAF field model.
-/

namespace AioMoqt.Media.Locmaf

open AioMoqt.Lib AioMoqt.Lib.BigEndian

/-- Bound on sample and subsample counts, checked before any allocation. -/
def maxSampleCount : Nat := 2 ^ 24

def u16Max : Nat := 0xFFFF
def u32Max : Nat := 0xFFFFFFFF
def u64Max : Nat := 2 ^ 64 - 1
def i32Min : Int := -(2 ^ 31)
def i32Max : Int := 2 ^ 31 - 1

/-- `LocmafMalformed`, `LocmafSourceError`, and the `struct.error` that packing
a value outside its field raises. -/
inductive LocmafError where
  | malformed (reason : String)
  | source (reason : String)
  | struct
deriving Repr, DecidableEq

/-- A pre-moof box: FourCC and the contents after its 8-byte header. -/
structure GenBox where
  name : Bytes
  payload : Bytes
deriving Repr, DecidableEq

/-- A chunk's meaning: per-sample vectors after deltas, deletions and the size
and decode-time derivations.  `subsampleCounts` is `none` when the chunk has no
subsample map; `ivs` concatenates the per-sample IVs. -/
structure EffectiveValues where
  bmdt : Nat
  sampleDescriptionIndex : Nat
  durations : List Nat
  sizes : List Nat
  flags : List Nat
  ctos : List Int
  ivSize : Nat
  ivs : Bytes
  subsampleCounts : Option (List Nat)
  clearBytes : List Nat
  protectedBytes : List Nat
  genBoxes : List GenBox
  mdat : Bytes
deriving Repr, DecidableEq

def EffectiveValues.sampleCount (eff : EffectiveValues) : Nat := eff.durations.length

/-- What a LOCMAF codec takes from the CMAF header.  Every value is a field of
a fixed-width box member, so the bounds come with it. -/
structure TrackContext where
  trackId : Nat
  timescale : Nat
  defaultSampleDescriptionIndex : Nat
  defaultSampleDuration : Nat
  defaultSampleSize : Nat
  defaultSampleFlags : Nat
  isProtected : Bool
  ivSize : Nat
  trackId_le : trackId ≤ u32Max
  defaultSampleDescriptionIndex_le : defaultSampleDescriptionIndex ≤ u32Max
  defaultSampleDuration_le : defaultSampleDuration ≤ u32Max
  defaultSampleSize_le : defaultSampleSize ≤ u32Max
  defaultSampleFlags_le : defaultSampleFlags ≤ u32Max
  ivSize_le : ivSize ≤ 255
deriving Repr, DecidableEq

/-! ## Reading integers -/

/-- `struct.unpack_from` of an unsigned big-endian member: `none` is `struct.error`. -/
def uintAt (width : Nat) (data : Bytes) (pos : Nat) : Option Nat :=
  if pos + width ≤ data.length then some (ofBE ((data.drop pos).take width)) else none

abbrev u16At := uintAt 2
abbrev u32At := uintAt 4
abbrev u64At := uintAt 8

/-- The two's complement reading of a 32-bit value. -/
def toI32 (v : Nat) : Int := if v < 2 ^ 31 then v else (v : Int) - 2 ^ 32

theorem uintAt_lt {width : Nat} {data : Bytes} {pos v : Nat}
    (h : uintAt width data pos = some v) : v < 256 ^ width := by
  unfold uintAt at h
  split at h
  · next hle =>
      have hlt := ofBE_lt ((data.drop pos).take width)
      have hlen : ((data.drop pos).take width).length = width := by
        simp only [List.length_take, List.length_drop]
        omega
      rw [hlen] at hlt
      simp only [Option.some.injEq] at h
      omega
  · simp at h

theorem u32At_le {data : Bytes} {pos v : Nat} (h : u32At data pos = some v) :
    v ≤ u32Max := by
  have := uintAt_lt h
  simp only [u32Max]
  omega

/-! ## ISO BMFF boxes -/

/-- A box as `(type, start, body, end)`. -/
structure Box where
  btype : Bytes
  start : Nat
  body : Nat
  stop : Nat
deriving Repr, DecidableEq

/-- One byte as Python's `repr` of a byte string shows it inside `quote`. -/
def byteRepr (quote : Char) (b : UInt8) : String :=
  let c := Char.ofNat b.toNat
  let hex := fun n : Nat => String.singleton (Nat.digitChar n)
  if c = quote ∨ b = 0x5C then "\\" ++ String.singleton c
  else if b = 9 then "\\t" else if b = 10 then "\\n" else if b = 13 then "\\r"
  else if b < 0x20 ∨ 0x7F ≤ b then "\\x" ++ hex (b.toNat / 16) ++ hex (b.toNat % 16)
  else String.singleton c

/-- `{data!r}` of a byte string. -/
def bytesRepr (data : Bytes) : String :=
  let quote := if 0x27 ∈ data ∧ 0x22 ∉ data then Char.ofNat 0x22 else Char.ofNat 0x27
  "b" ++ String.singleton quote ++ String.join (data.map (byteRepr quote)) ++
    String.singleton quote

/-- FourCC of an ASCII name. -/
def fourCC (name : String) : Bytes := name.toList.map fun c => UInt8.ofNat c.toNat

/-- The size of the box at `pos`: 32-bit, 64-bit after a size of 1, and to the
end of the parent after a size of 0. -/
def boxSize (data : Bytes) (stop pos : Nat) : Nat :=
  let size := ofBE ((data.drop pos).take 4)
  if size = 1 then ofBE ((data.drop (pos + 8)).take 8)
  else if size = 0 then stop - pos else size

/-- Where the contents of the box at `pos` start. -/
def boxBody (data : Bytes) (pos : Nat) : Nat :=
  if ofBE ((data.drop pos).take 4) = 1 then pos + 16 else pos + 8

/-- Boxes tiling `data[pos:stop]` exactly.  Every box is at least 8 bytes, so
`stop - pos` is fuel enough. -/
def walkFrom (data : Bytes) (stop : Nat) : Nat → Nat → Except LocmafError (List Box)
  | fuel, pos =>
    if stop ≤ pos then .ok []
    else match fuel with
      | 0 => .error (.malformed "out of fuel")
      | fuel + 1 =>
        let btype := (data.drop (pos + 4)).take 4
        let name := bytesRepr btype
        let size := boxSize data stop pos
        let body := boxBody data pos
        if stop - pos < 8 then .error (.malformed s!"truncated box header at {pos}")
        else if body = pos + 16 ∧ stop - pos < 16 then
          .error (.malformed s!"truncated largesize header at {pos}")
        else if size < body - pos ∨ stop - pos < size then
          .error (.malformed s!"box {name} size {size} at {pos} does not fit its parent")
        else (walkFrom data stop fuel (pos + size)).map
          (⟨btype, pos, body, pos + size⟩ :: ·)

def walk (data : Bytes) (start stop : Nat) : Except LocmafError (List Box) :=
  walkFrom data stop (stop - start) start

/-- The first child of a type, if any. -/
def child (data : Bytes) (parent : Box) (name : String) : Except LocmafError (Option Box) := do
  let boxes ← walk data parent.body parent.stop
  return boxes.find? fun b => b.btype = fourCC name

/-- `_child` with `need`: a missing box is malformed. -/
def childOf (data : Bytes) (parent : Box) (name : String) : Except LocmafError Box := do
  match ← child data parent name with
  | some box => return box
  | none => throw (.malformed s!"init: no {name} box")

/-! ## The CMAF header -/

/-- `_child(..., need=False)` on an optional parent. -/
def childOpt (data : Bytes) (parent : Option Box) (name : String) :
    Except LocmafError (Option Box) :=
  match parent with
  | none => .ok none
  | some box => child data box name

/-- Fixed members of an `enca` sample entry by QuickTime version. -/
def encaFixed (version : Nat) : Nat :=
  if version = 1 then 44 else if version = 2 then 64 else 28

/-- `(default_isProtected, default_Per_Sample_IV_Size)` of the first sample
entry's `tenc`; `(false, 0)` for an unprotected entry. -/
def tenc (init : Bytes) (mdia : Box) : Except LocmafError (Bool × UInt8) := do
  let minf ← child init mdia "minf"
  let stbl ← childOpt init minf "stbl"
  let some stsd ← childOpt init stbl "stsd" | return (false, 0)
  if stsd.stop - stsd.body < 8 then return (false, 0)
  if ofBE ((init.drop (stsd.body + 4)).take 4) = 0 then return (false, 0)
  let entries ← walk init (stsd.body + 8) stsd.stop
  let some entry := entries.head? | return (false, 0)
  if entry.btype ≠ fourCC "encv" ∧ entry.btype ≠ fourCC "enca" then return (false, 0)
  if entry.btype = fourCC "enca" ∧ entry.stop - entry.body < 28 then
    throw (.malformed "init: enca sample entry too short")
  let name := if entry.btype = fourCC "enca" then "enca" else "encv"
  let fixed := if entry.btype = fourCC "enca"
    then encaFixed (ofBE ((init.drop (entry.body + 8)).take 2)) else 78
  if entry.stop < entry.body + fixed then
    throw (.malformed s!"init: {name} sample entry too short")
  let sinf ← child init { entry with body := entry.body + fixed } "sinf"
  let schi ← childOpt init sinf "schi"
  let some box ← childOpt init schi "tenc" | return (false, 0)
  if box.stop - box.body < 24 then throw (.malformed "init: tenc too short")
  return (init.getD (box.body + 6) 0 = 1, init.getD (box.body + 7) 0)

/-- A 32-bit member of a full box at the offset its version selects. -/
def versionedU32 (init : Bytes) (box : Box) (what : String) : Except LocmafError Nat :=
  let off := if init.getD box.body 0 = 1 then 20 else 12
  if box.stop < box.body + off + 4 then .error (.malformed s!"init: {what} too short")
  else .ok (ofBE ((init.drop (box.body + off)).take 4))

theorem ofBE_take_four_le (bs : Bytes) : ofBE (bs.take 4) ≤ u32Max := by
  have hlt := ofBE_lt (bs.take 4)
  have hlen : (bs.take 4).length ≤ 4 := by simp
  have hpow : 256 ^ (bs.take 4).length ≤ 256 ^ 4 := Nat.pow_le_pow_right (by omega) hlen
  simp only [u32Max]
  omega

theorem versionedU32_le {init : Bytes} {box : Box} {what : String} {v : Nat}
    (h : versionedU32 init box what = .ok v) : v ≤ u32Max := by
  simp only [versionedU32] at h
  split_ifs at h
  all_goals
    rw [Except.ok.injEq] at h
    rw [← h]
    exact ofBE_take_four_le _

/-- The `trex` member `index` (0 to 3) after the track id. -/
def trexMember (init : Bytes) (trex : Box) (index : Nat) : Nat :=
  ofBE ((init.drop (trex.body + 8 + 4 * index)).take 4)

/-- Parse a CMAF header (ftyp + moov with exactly one trak). -/
def TrackContext.fromInit (init : Bytes) : Except LocmafError TrackContext := do
  let root : Box := ⟨[], 0, 0, init.length⟩
  let moov ← childOf init root "moov"
  let kids ← walk init moov.body moov.stop
  let traks := kids.filter fun b => b.btype = fourCC "trak"
  let count := traks.length
  let [trak] := traks
    | throw (.source s!"LOCMAF needs exactly one trak, the init has {count}")
  let tkhd ← childOf init trak "tkhd"
  match hid : versionedU32 init tkhd "tkhd" with
  | .error e => throw e
  | .ok wireId =>
    let trackId := if wireId = 0 then 1 else wireId
    let mdia ← childOf init trak "mdia"
    let mdhd ← childOf init mdia "mdhd"
    let timescale ← versionedU32 init mdhd "mdhd"
    let (isProtected, ivSize) ← tenc init mdia
    let mvex ← childOf init moov "mvex"
    let exts ← walk init mvex.body mvex.stop
    let some trex := exts.find? fun b =>
        b.btype = fourCC "trex" ∧ 24 ≤ b.stop - b.body ∧
          ofBE ((init.drop (b.body + 4)).take 4) = trackId
      | throw (.malformed s!"init: no trex for track {trackId}")
    return {
      trackId, timescale
      defaultSampleDescriptionIndex := trexMember init trex 0
      defaultSampleDuration := trexMember init trex 1
      defaultSampleSize := trexMember init trex 2
      defaultSampleFlags := trexMember init trex 3
      isProtected
      ivSize := ivSize.toNat
      trackId_le := by
        have := versionedU32_le hid
        simp only [trackId, u32Max] at this ⊢
        split <;> omega
      defaultSampleDescriptionIndex_le := ofBE_take_four_le _
      defaultSampleDuration_le := ofBE_take_four_le _
      defaultSampleSize_le := ofBE_take_four_le _
      defaultSampleFlags_le := ofBE_take_four_le _
      ivSize_le := by have := ivSize.toNat_lt; omega }

end AioMoqt.Media.Locmaf
