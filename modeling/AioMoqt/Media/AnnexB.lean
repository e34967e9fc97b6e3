import AioMoqt.Lib.Delimited

/-!
# Annex B assembly

`AnnexBAssembler` and `HevcAnnexBAssembler` of `media/sources.py`: an Annex B byte stream is cut
into NAL units, these into access units, and the parameter sets make the decoder configuration.
-/

namespace AioMoqt.Media

open AioMoqt.Lib AioMoqt.Lib.BigEndian AioMoqt.Lib.Delimited

/-- `IndexError` and `struct.error`. -/
inductive RecordError where
  | index
  | struct
deriving Repr, DecidableEq

/-- The class of the assembler. -/
inductive VideoCodec where
  | h264
  | hevc
deriving Repr, DecidableEq

/-- A NAL unit has a first byte. -/
structure Nal where
  head : UInt8
  rest : Bytes
deriving Repr, DecidableEq

namespace Nal

variable (n : Nal)

def bytes : Bytes := n.head :: n.rest

/-- `if nal`. -/
def ofBytes? : Bytes → Option Nal
  | [] => none
  | head :: rest => some ⟨head, rest⟩

/-- `nal[0] & 0x1F`. -/
def avcType : Nat := n.head.toNat % 32

/-- `len(nal) > i and nal[i] & 0x80`. -/
def highBit (i : Nat) : Bool := n.bytes[i]?.any fun b => 128 ≤ b.toNat

/-- `_hevc_type`. -/
def hevcType : Nat := n.head.toNat / 2 % 64

end Nal

/-! ## Configuration records -/

/-- `data[i]`. -/
def byteAt (data : Bytes) (i : Nat) : Except RecordError UInt8 :=
  match data[i]? with
  | some b => .ok b
  | none => .error .index

/-- `struct.pack` of an unsigned big-endian member. -/
def packUnsigned (width v : Nat) : Except RecordError Bytes :=
  if v < 256 ^ width then .ok (toBE width v) else .error .struct

/-- `avcc_from_sps_pps`. -/
def avccFromSpsPps (sps pps : Nal) : Except RecordError Bytes := do
  let profile ← byteAt sps.bytes 1
  let constraints ← byteAt sps.bytes 2
  let level ← byteAt sps.bytes 3
  let spsLen ← packUnsigned 2 sps.bytes.length
  let ppsLen ← packUnsigned 2 pps.bytes.length
  return ([1, profile, constraints, level, 0xFF, 0xE1] : Bytes) ++ spsLen ++ sps.bytes ++
    [0x01] ++ ppsLen ++ pps.bytes

/-- `_rbsp`. -/
def rbsp : Bytes → Bytes
  | 0 :: 0 :: 3 :: rest => 0 :: 0 :: rbsp rest
  | b :: rest => b :: rbsp rest
  | [] => []

/-- `_BitReader`: the bits that are left. -/
abbrev BitReader := StateT (List Bool) (Except RecordError)

namespace BitReader

/-- The bits of a byte string, the high bit of each byte first. -/
def bits (data : Bytes) : List Bool :=
  data.flatMap fun b => (List.range 8).map fun i => b.toNat.testBit (7 - i)

def bit : BitReader Bool := fun
  | [] => .error .index
  | b :: rest => .ok (b, rest)

def u : Nat → BitReader Nat
  | 0 => pure 0
  | n + 1 => do
      let v ← u n
      let b ← bit
      return 2 * v + b.toNat

/-- The zeros in front of the next one, which is read too. -/
def zeros : List Bool → Except RecordError (Nat × List Bool)
  | [] => .error .index
  | true :: rest => .ok (0, rest)
  | false :: rest => do
      let (n, rest) ← zeros rest
      return (n + 1, rest)

def ue : BitReader Nat := do
  let n ← (zeros : BitReader Nat)
  let low ← u n
  return 2 ^ n - 1 + low

end BitReader

/-- What `hevc_sps_info` returns. -/
structure HevcSpsInfo where
  ptl : Bytes
  subLayers : Nat
  nested : Nat
  chroma : Nat
  lumaBits : Nat
  chromaBits : Nat
  width : Int
  height : Int
deriving Repr, DecidableEq

open BitReader in
/-- `hevc_sps_info`, of the bytes behind the NAL header. -/
def hevcSpsFields (raw : Bytes) : BitReader HevcSpsInfo := do
  let _ ← u 4
  let maxSubLayers := (← u 3) + 1
  let nested ← u 1
  let _ ← u 96
  let present ← (List.range (maxSubLayers - 1)).mapM fun _ => do
    let profile ← u 1
    let level ← u 1
    return (profile, level)
  if 1 < maxSubLayers then
    let _ ← u (2 * (9 - maxSubLayers))
  present.forM fun (profile, level) => do
    let _ ← u (88 * profile + 8 * level)
  let _ ← ue
  let chroma ← ue
  if chroma = 3 then
    let _ ← u 1
  let width ← ue
  let height ← ue
  let window ← u 1
  let (cropWidth, cropHeight) ←
    if window = 0 then pure (0, 0)
    else do
      let left ← ue
      let right ← ue
      let top ← ue
      let bottom ← ue
      let unitX := if chroma = 1 ∨ chroma = 2 then 2 else 1
      let unitY := if chroma = 1 then 2 else 1
      pure ((left + right) * unitX, (top + bottom) * unitY)
  let lumaBits ← ue
  let chromaBits ← ue
  return {
    ptl := (raw.drop 1).take 12
    subLayers := maxSubLayers
    nested := nested
    chroma := chroma
    lumaBits := lumaBits + 8
    chromaBits := chromaBits + 8
    width := (width : Int) - cropWidth
    height := (height : Int) - cropHeight }

/-- `hevc_sps_info`. -/
def hevcSpsInfo (sps : Nal) : Except RecordError HevcSpsInfo :=
  let raw := rbsp (sps.bytes.drop 2)
  (hevcSpsFields raw (BitReader.bits raw)).map Prod.fst

def hevcVps : Nat := 32
def hevcSps : Nat := 33
def hevcPps : Nat := 34
def hevcAud : Nat := 35
def hevcSeiSuffix : Nat := 40

/-- One parameter set of an hvcC record. -/
def hvccArray (kind : Nat) (nal : Nal) : Except RecordError Bytes := do
  let len ← packUnsigned 2 nal.bytes.length
  return [UInt8.ofNat (0x80 ||| kind)] ++ toBE 2 1 ++ len ++ nal.bytes

/-- `hvcc_from_parameter_sets`. -/
def hvccFromParameterSets (vps sps pps : Nal) : Except RecordError Bytes := do
  let info ← hevcSpsInfo sps
  let chroma ← packUnsigned 1 (0xFC ||| info.chroma)
  let luma ← packUnsigned 1 (0xF8 ||| (info.lumaBits - 8))
  let chromaDepth ← packUnsigned 1 (0xF8 ||| (info.chromaBits - 8))
  let vpsArray ← hvccArray hevcVps vps
  let spsArray ← hvccArray hevcSps sps
  let ppsArray ← hvccArray hevcPps pps
  let layers := (info.subLayers <<< 3) ||| (info.nested <<< 2) ||| 3
  return 1 :: info.ptl ++ ([0xF0, 0x00, 0xFC] : Bytes) ++ chroma ++ luma ++ chromaDepth ++
    ([0, 0, UInt8.ofNat layers, 3] : Bytes) ++ vpsArray ++ spsArray ++ ppsArray

/-! ## NAL units of a byte stream -/

/-- The start code that `find` looks for; a longer one has a zero more in front. -/
def startCode : Bytes := [0, 0, 1]

/-- `rstrip(b'\x00')`. -/
def stripZeros (b : Bytes) : Bytes := (b.reverse.dropWhile (· = 0)).reverse

/-- The NAL unit between two start codes, if there is one. -/
def nalOf (b : Bytes) : Option Nal := Nal.ofBytes? (stripZeros b)

/-- The loop of `_extract_nals`: NAL units behind a start code that has been found, and the
bytes from the last start code on. -/
def nalsFrom : Nat → Bytes → List Nal × Bytes
  | 0, rest => ([], startCode ++ rest)
  | fuel + 1, rest => match find startCode rest with
    | none => ([], startCode ++ rest)
    | some j =>
        let (nals, buf) := nalsFrom fuel (rest.drop (j + startCode.length))
        ((nalOf (rest.take j)).toList ++ nals, buf)

/-- `_extract_nals`: the complete NAL units, and what stays buffered. -/
def extractNals (buf : Bytes) : List Nal × Bytes :=
  match find startCode buf with
  | none => ([], buf.drop (buf.length - 2))
  | some i => nalsFrom buf.length (buf.drop (i + startCode.length))

/-! ## Access units -/

/-- A payload and whether it is a key frame. -/
structure VideoFrame where
  payload : Bytes
  key : Bool
deriving Repr, DecidableEq

/-- `AnnexBAssembler`; `vps` is the one field more of `HevcAnnexBAssembler`. -/
structure AnnexBAssembler where
  buf : Bytes := []
  au : List Nal := []
  auHasVcl : Bool := false
  sps : Option Nal := none
  pps : Option Nal := none
  vps : Option Nal := none
deriving Repr, DecidableEq

/-- `_is_key`. -/
def isKey : VideoCodec → List Nal → Bool
  | .h264, nals => nals.any fun n => n.avcType = 5
  | .hevc, nals => nals.any fun n => 16 ≤ n.hevcType ∧ n.hevcType ≤ 23

/-- `b''.join(struct.pack('>I', len(n)) + n for n in au)`. -/
def lengthPrefixed : List Nal → Except RecordError Bytes
  | [] => .ok []
  | n :: rest => do
      let len ← packUnsigned 4 n.bytes.length
      let payload ← lengthPrefixed rest
      return len ++ n.bytes ++ payload

namespace AnnexBAssembler

variable (codec : VideoCodec) (s : AnnexBAssembler)

/-- `config`. -/
def config : Except RecordError (Option Bytes) :=
  match codec, s.vps, s.sps, s.pps with
  | .h264, _, some sps, some pps => some <$> avccFromSpsPps sps pps
  | .hevc, some vps, some sps, some pps => some <$> hvccFromParameterSets vps sps pps
  | _, _, _, _ => .ok none

/-- `_flush`. -/
def flush (out : List VideoFrame) : Except RecordError (AnnexBAssembler × List VideoFrame) := do
  let idle := { s with au := [], auHasVcl := false }
  if s.au = [] then return (idle, out)
  let payload ← lengthPrefixed s.au
  return (idle, out ++ [⟨payload, isKey codec s.au⟩])

/-- `_flush` where a slice has been seen. -/
def flushVcl (out : List VideoFrame) : Except RecordError (AnnexBAssembler × List VideoFrame) :=
  if s.auHasVcl then s.flush codec out else pure (s, out)

/-- `self._au.append(nal)`. -/
def append (nal : Nal) : AnnexBAssembler := { s with au := s.au ++ [nal] }

/-- `AnnexBAssembler._push`. -/
def pushAvc (nal : Nal) (out : List VideoFrame) :
    Except RecordError (AnnexBAssembler × List VideoFrame) := do
  let t := nal.avcType
  if t = 7 ∨ t = 8 then
    let (s, out) ← s.flushVcl .h264 out
    return (if t = 7 then { s with sps := some nal } else { s with pps := some nal }, out)
  else if t = 9 then s.flush .h264 out
  else if t = 1 ∨ t = 5 then
    -- first_mb_in_slice == 0: a leading one bit
    let (s, out) ← if nal.highBit 1 then s.flushVcl .h264 out else pure (s, out)
    return ({ s.append nal with auHasVcl := true }, out)
  else
    let (s, out) ← s.flushVcl .h264 out
    return (s.append nal, out)

/-- The parameter sets of `HevcAnnexBAssembler`. -/
def keepSets (nal : Nal) : AnnexBAssembler :=
  if nal.hevcType = hevcVps then { s with vps := some nal }
  else if nal.hevcType = hevcSps then { s with sps := some nal }
  else if nal.hevcType = hevcPps then { s with pps := some nal }
  else s

/-- `HevcAnnexBAssembler._push`. -/
def pushHevc (nal : Nal) (out : List VideoFrame) :
    Except RecordError (AnnexBAssembler × List VideoFrame) := do
  if nal.rest = [] then return (s, out)
  let t := nal.hevcType
  if t = hevcAud then s.flush .hevc out
  else if t < 32 then
    -- first_slice_segment_in_pic_flag
    let (s, out) ← if nal.highBit 2 then s.flushVcl .hevc out else pure (s, out)
    return ({ s.append nal with auHasVcl := true }, out)
  else if t = hevcSeiSuffix then return (s.append nal, out)
  else
    let (s, out) ← s.flushVcl .hevc out
    return ((s.keepSets nal).append nal, out)

/-- `_push`. -/
def push (nal : Nal) (out : List VideoFrame) :
    Except RecordError (AnnexBAssembler × List VideoFrame) :=
  match codec with
  | .h264 => s.pushAvc nal out
  | .hevc => s.pushHevc nal out

/-- `_push` of one NAL unit after another. -/
def pushAll (nals : List Nal) (out : List VideoFrame) :
    Except RecordError (AnnexBAssembler × List VideoFrame) :=
  nals.foldlM (fun (s, out) nal => push codec s nal out) (s, out)

/-- `feed`. -/
def feed (chunk : Bytes) : Except RecordError (AnnexBAssembler × List VideoFrame) :=
  let (nals, buf) := extractNals (s.buf ++ chunk)
  pushAll codec { s with buf := buf } nals []

/-- The NAL unit that the end of the stream completes. -/
def lastNal (buf : Bytes) : Option Nal :=
  (find startCode buf).bind fun i => nalOf (buf.drop (i + startCode.length))

/-- `close`. -/
def close : Except RecordError (AnnexBAssembler × List VideoFrame) := do
  let (s, out) ← pushAll codec { s with buf := [] } (lastNal s.buf).toList []
  s.flush codec out

/-- `feed` of one chunk after another. -/
def feedAll : AnnexBAssembler → List Bytes →
    Except RecordError (AnnexBAssembler × List VideoFrame)
  | s, [] => .ok (s, [])
  | s, chunk :: chunks => do
      let (s, out) ← s.feed codec chunk
      let (s, more) ← feedAll s chunks
      return (s, out ++ more)

/-- A stream in chunks, and its end. -/
def assemble (chunks : List Bytes) : Except RecordError (AnnexBAssembler × List VideoFrame) := do
  let (s, out) ← feedAll codec {} chunks
  let (s, last) ← s.close codec
  return (s, out ++ last)

end AnnexBAssembler

end AioMoqt.Media
