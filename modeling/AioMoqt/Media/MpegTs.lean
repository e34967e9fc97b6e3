import AioMoqt.Lib.Dict
import AioMoqt.Media.AnnexB
import Mathlib.Data.Finset.Basic

/-!
# Transport stream demuxing

`TsDemuxer` of `media/mpegts.py`: packets are taken off a byte stream, PAT and PMT name the
PIDs, and the PES of these become access units with unwrapped timestamps.
-/

namespace AioMoqt.Media

open AioMoqt.Lib AioMoqt.Lib.BigEndian

/-- `TS_PACKET`. -/
def tsPacket : Nat := 188

def streamTypeH264 : Nat := 0x1B
def streamTypeHevc : Nat := 0x24
def streamTypeAacAdts : Nat := 0x0F
def streamTypePrivate : Nat := 0x06

/-- `_OPUS_REGISTRATION`. -/
def opusRegistration : Bytes := [0x4F, 0x70, 0x75, 0x73]

/-- `_PTS_WRAP`. -/
def ptsWrap : Nat := 2 ^ 33

/-- `_PTS_HALF`. -/
def ptsHalf : Nat := 2 ^ 32

/-- `_AAC_FRAME_SAMPLES`. -/
def aacFrameSamples : Nat := 1024

inductive TsKind where
  | video
  | audio
deriving Repr, DecidableEq

/-- `TsUnit`. -/
structure TsUnit where
  kind : TsKind
  payload : Bytes
  key : Bool
  pts : Nat
deriving Repr, DecidableEq

/-- `data[i]`, of an index inside. -/
def octet (data : Bytes) (i : Nat) : Nat := (data[i]?.getD 0).toNat

/-! ## Audio payloads -/

/-- A frame of `adts_split`. -/
structure AdtsFrame where
  asc : Bytes
  samplerate : Nat
  channels : Nat
  au : Bytes
deriving Repr, DecidableEq

/-- `_ADTS_FREQ`. -/
def adtsFreq : List Nat :=
  [96000, 88200, 64000, 48000, 44100, 32000, 24000, 22050, 16000, 12000, 11025, 8000, 7350]

/-- `adts_split`, of the bytes from `pos` on. -/
def adtsSplitFrom : Nat → Bytes → List AdtsFrame
  | 0, _ => []
  | fuel + 1, rest =>
      if rest.length < 7 then []
      else if octet rest 0 ≠ 0xFF ∨ octet rest 1 &&& 0xF6 ≠ 0xF0 then
        adtsSplitFrom fuel (rest.drop 1)
      else
        let protectionAbsent := octet rest 1 &&& 1
        let profile := (octet rest 2 >>> 6) &&& 3
        let freqIdx := (octet rest 2 >>> 2) &&& 0xF
        let chan := ((octet rest 2 &&& 1) <<< 2) ||| (octet rest 3 >>> 6)
        let length := ((octet rest 3 &&& 3) <<< 11) ||| (octet rest 4 <<< 3) ||| (octet rest 5 >>> 5)
        let hlen := if protectionAbsent ≠ 0 then 7 else 9
        if length < hlen ∨ rest.length < length then []
        else
          let obj := profile + 1
          { asc := [UInt8.ofNat ((obj <<< 3) ||| (freqIdx >>> 1)),
              UInt8.ofNat (((freqIdx &&& 1) <<< 7) ||| (chan <<< 3))]
            samplerate := adtsFreq[freqIdx]?.getD 48000
            channels := chan
            au := (rest.take length).drop hlen } :: adtsSplitFrom fuel (rest.drop length)

def adtsSplit (data : Bytes) : List AdtsFrame := adtsSplitFrom data.length data

/-- The size field of an Opus control header: bytes are added up to the first below 0xFF. -/
def opusSize : Bytes → Nat × Nat
  | [] => (0, 0)
  | b :: rest =>
      if b = 0xFF then
        let (size, read) := opusSize rest
        (size + b.toNat, read + 1)
      else (b.toNat, 1)

/-- `opus_split`, from `pos` on. -/
def opusSplitFrom (data : Bytes) : Nat → Nat → List Bytes
  | 0, _ => []
  | fuel + 1, pos =>
      let hdr := (octet data pos <<< 8) ||| octet data (pos + 1)
      if data.length < pos + 2 ∨ hdr &&& 0xFFE0 ≠ 0x7FE0 then []
      else
        let (size, read) := opusSize (data.drop (pos + 2))
        let trimmed := pos + 2 + read + (if hdr &&& 0x10 ≠ 0 then 2 else 0) +
          (if hdr &&& 0x08 ≠ 0 then 2 else 0)
        if hdr &&& 0x04 ≠ 0 ∧ data.length ≤ trimmed then []
        else
          let start := if hdr &&& 0x04 ≠ 0 then trimmed + 1 + octet data trimmed else trimmed
          if data.length < start + size then []
          else (data.drop start).take size :: opusSplitFrom data fuel (start + size)

def opusSplit (data : Bytes) : List Bytes := opusSplitFrom data data.length 0

/-- `opus_samples`. -/
def opusSamples (packet : Bytes) : Nat :=
  match packet with
  | [] => 0
  | toc :: rest =>
      let config := toc.toNat >>> 3
      let frame :=
        if config < 12 then [480, 960, 1920, 2880].getD (config &&& 3) 0
        else if config < 16 then [480, 960].getD (config &&& 1) 0
        else [120, 240, 480, 960].getD (config &&& 3) 0
      let code := toc.toNat &&& 3
      if code = 0 then frame
      else if code < 3 then 2 * frame
      else frame * (match rest with
        | [] => 0
        | count :: _ => count.toNat &&& 0x3F)

/-! ## Descriptors -/

/-- The descriptors of a PMT entry from `i` on: each tag with the bytes behind its length. -/
def descriptorsFrom : Nat → Bytes → List (Nat × Nat × Bytes)
  | 0, _ => []
  | fuel + 1, rest =>
      if rest.length < 2 then []
      else (octet rest 0, octet rest 1, rest.drop 2) ::
        descriptorsFrom fuel (rest.drop (2 + octet rest 1))

/-- `_opus_channels`. -/
def opusChannels (descriptors : Bytes) : Option Nat :=
  match (descriptorsFrom descriptors.length descriptors).find? fun (tag, size, rest) =>
      tag = 0x7F ∧ 2 ≤ (rest.take size).length ∧ octet rest 0 = 0x80 with
  | none => none
  | some (_, _, rest) =>
      let code := octet rest 1
      if code = 0 then some 2 else if code ≤ 8 then some code else none

/-- `_registered`. -/
def registeredAs (descriptors fourcc : Bytes) : Bool :=
  (descriptorsFrom descriptors.length descriptors).any fun (tag, _, rest) =>
    tag = 0x05 ∧ rest.take 4 = fourcc

/-! ## The demuxer -/

inductive AudioCodec where
  | aac
  | opus
deriving Repr, DecidableEq

/-- `TsDemuxer`, but for its buffer, which packets do not touch, and its clock, which demuxing
does not consult. -/
structure TsDemuxer where
  video : AnnexBAssembler := {}
  videoCodec : Option VideoCodec := none
  videoPid : Option Nat := none
  audioPid : Option Nat := none
  audioCodec : Option AudioCodec := none
  opusChannels : Option Nat := none
  audioAsc : Option Bytes := none
  audioSamplerate : Option Nat := none
  audioChannels : Option Nat := none
  pmtSeen : Bool := false
  unsupported : Finset Nat := ∅
  configChanged : Bool := false
  ccErrors : Nat := 0
  pmtPid : Option Nat := none
  pes : Dict Nat Bytes := .empty
  cc : Dict Nat Nat := .empty
  skip : Finset Nat := ∅
  lastPts : Dict Nat (Nat × Nat) := .empty
  videoConfig : Option Bytes := none
  eagerVideo : Bool := true
  ended : Finset Nat := ∅
  audioFrameSamples : Option Nat := none

/-- The state after a step and the units it put out, or what it raised. -/
abbrev Demuxed : Type := Except RecordError (TsDemuxer × List TsUnit)

/-- `_af_stuffed`. -/
def afStuffed (pkt : Bytes) (pusi : Bool) : Except RecordError Bool := do
  let afLen := (← byteAt pkt 4).toNat
  if afLen = 0 then return true
  let last := 5 + afLen
  let flags := (← byteAt pkt 5).toNat
  let clocks := 6 + (if flags &&& 0x10 ≠ 0 then 6 else 0) + (if flags &&& 0x08 ≠ 0 then 6 else 0) +
    (if flags &&& 0x04 ≠ 0 then 1 else 0)
  let priv ← if flags &&& 0x02 ≠ 0 ∧ clocks < last then
      do pure (clocks + 1 + (← byteAt pkt clocks).toNat)
    else pure clocks
  let i ← if flags &&& 0x01 ≠ 0 ∧ priv < last then
      do pure (priv + 1 + (← byteAt pkt priv).toNat)
    else pure priv
  return i < last ∨ flags = 0 ∨ (!pusi ∧ flags &&& 0x1F = 0)

/-- `_pts_at`. -/
def ptsAt (b : Bytes) (i : Nat) : Nat :=
  (((octet b i >>> 1) &&& 7) <<< 30) ||| (octet b (i + 1) <<< 22) |||
    (((octet b (i + 2) >>> 1) &&& 0x7F) <<< 15) ||| (octet b (i + 3) <<< 7) |||
    (octet b (i + 4) >>> 1)

/-- `_section`. -/
def psiSection (payload : Bytes) (pusi : Bool) : Option Bytes :=
  if !pusi then none
  else
    let sec := payload.drop (1 + octet payload 0)
    if sec.length < 8 then none
    else some (sec.take (3 + (((octet sec 1 &&& 0x0F) <<< 8) ||| octet sec 2)))

namespace TsDemuxer

variable (s : TsDemuxer)

/-- The class of `self.video`. -/
def videoClass : VideoCodec := s.videoCodec.getD .h264

/-! ### Program tables -/

/-- The first program of a PAT section, from `i` on. -/
def firstProgram (sec : Bytes) : Nat → Nat → Option Nat
  | 0, _ => none
  | fuel + 1, i =>
      if sec.length ≤ i + 4 then none
      else if ((octet sec i <<< 8) ||| octet sec (i + 1)) ≠ 0 then
        some (((octet sec (i + 2) &&& 0x1F) <<< 8) ||| octet sec (i + 3))
      else firstProgram sec fuel (i + 4)

/-- `_pat`. -/
def pat (payload : Bytes) (pusi : Bool) : TsDemuxer :=
  match psiSection payload pusi with
  | none => s
  | some sec =>
      if octet sec 0 ≠ 0 then s
      else match firstProgram sec sec.length 8 with
        | none => s
        | some pid => { s with pmtPid := some pid }

/-- A video stream of the PMT: another codec takes a new assembler. -/
def takeVideo (codec : VideoCodec) : TsDemuxer :=
  if s.videoCodec = some codec then s else { s with videoCodec := some codec, video := {} }

/-- The streams of a PMT section, from `i` on. -/
def pmtStreams (sec : Bytes) : Nat → Nat → TsDemuxer → Option Nat → Option Nat → TsDemuxer
  | 0, _, s, video, audio => { s with videoPid := video, audioPid := audio, pmtSeen := true }
  | fuel + 1, i, s, video, audio =>
      if sec.length < i + 5 + 4 then
        { s with videoPid := video, audioPid := audio, pmtSeen := true }
      else
        let stype := octet sec i
        let pid := ((octet sec (i + 1) &&& 0x1F) <<< 8) ||| octet sec (i + 2)
        let esLen := ((octet sec (i + 3) &&& 0x0F) <<< 8) ||| octet sec (i + 4)
        let desc := (sec.drop (i + 5)).take esLen
        let go := pmtStreams sec fuel (i + 5 + esLen)
        if (stype = streamTypeH264 ∨ stype = streamTypeHevc) ∧ video = none then
          go (s.takeVideo (if stype = streamTypeHevc then .hevc else .h264)) (some pid) audio
        else if stype = streamTypeAacAdts ∧ audio = none then
          go { s with audioCodec := some .aac } video (some pid)
        else if stype = streamTypePrivate ∧ audio = none ∧ registeredAs desc opusRegistration then
          go { s with audioCodec := some .opus, opusChannels := Media.opusChannels desc } video
            (some pid)
        else go { s with unsupported := insert stype s.unsupported } video audio

/-- `_pmt`. -/
def pmt (payload : Bytes) (pusi : Bool) : Except RecordError TsDemuxer :=
  match psiSection payload pusi with
  | none => .ok s
  | some sec =>
      if octet sec 0 ≠ 2 then .ok s
      else do
        let high ← byteAt sec 10
        let low ← byteAt sec 11
        let infoLen := ((high.toNat &&& 0x0F) <<< 8) ||| low.toNat
        return pmtStreams sec sec.length (12 + infoLen) s none none

/-! ### PES -/

/-- `_unwrap`. -/
def unwrap (pid pts : Nat) : TsDemuxer × Nat :=
  match s.lastPts.get? pid with
  | none => ({ s with lastPts := s.lastPts.insert pid (pts, 0) }, pts)
  | some (last, base) =>
      -- pts < last - _PTS_HALF
      let base := if pts + ptsHalf < last then base + ptsWrap else base
      ({ s with lastPts := s.lastPts.insert pid (pts, base) }, base + pts)

/-- `_unwrap` of one timestamp of a PID after another. -/
def unwrapAll (pid : Nat) : TsDemuxer → List Nat → List Nat
  | _, [] => []
  | s, pts :: rest => (s.unwrap pid pts).2 :: unwrapAll pid (s.unwrap pid pts).1 rest

/-- The configuration is noted, and whether it changed. -/
def noteConfig (cfg : Option Bytes) : TsDemuxer :=
  if cfg = none ∨ cfg = s.videoConfig then s
  else { s with
    configChanged := s.configChanged || s.videoConfig.isSome
    videoConfig := cfg }

/-- `_emit_video`. -/
def emitVideo (data : Bytes) (pts : Nat) : Demuxed := do
  let (video, frames) ← s.video.feed s.videoClass data
  let (video, last) ← video.close s.videoClass
  let s := { s with video := video }
  let cfg ← video.config s.videoClass
  return (s.noteConfig cfg, (frames ++ last).map fun f => ⟨.video, f.payload, f.key, pts⟩)

/-- What an ADTS frame says about the track. -/
def noteAdts (f : AdtsFrame) : TsDemuxer :=
  let s := if some f.asc = s.audioAsc then s
    else { s with
      configChanged := s.configChanged || s.audioAsc.isSome
      audioAsc := some f.asc
      audioSamplerate := some f.samplerate
      audioChannels := some f.channels }
  { s with audioFrameSamples := some (s.audioFrameSamples.getD aacFrameSamples) }

/-- The frames of an ADTS payload, the first of them number `i`. -/
def emitAdts (pts : Nat) : Nat → List AdtsFrame → TsDemuxer → TsDemuxer × List TsUnit
  | _, [], s => (s, [])
  | i, f :: rest, s =>
      let (s', units) := emitAdts pts (i + 1) rest (s.noteAdts f)
      (s', ⟨.audio, f.au, true, pts + i * aacFrameSamples * 90000 / f.samplerate⟩ :: units)

/-- What an Opus packet says about the track. -/
def noteOpus (pkt : Bytes) : TsDemuxer :=
  let declared := s.opusChannels.getD 0
  let channels := if declared ≠ 0 then declared else if octet pkt 0 &&& 0x04 ≠ 0 then 2 else 1
  let s := if some channels = s.audioChannels then s
    else { s with
      configChanged := s.configChanged || s.audioChannels.isSome
      audioSamplerate := some 48000
      audioChannels := some channels }
  { s with audioFrameSamples := some (s.audioFrameSamples.getD (opusSamples pkt)) }

/-- `_emit_opus`, behind `samples` samples. -/
def emitOpus (pts : Nat) : Nat → List Bytes → TsDemuxer → TsDemuxer × List TsUnit
  | _, [], s => (s, [])
  | samples, pkt :: rest, s =>
      if pkt = [] then emitOpus pts samples rest s
      else
        let (s', units) := emitOpus pts (samples + opusSamples pkt) rest (s.noteOpus pkt)
        (s', ⟨.audio, pkt, true, pts + samples * 90000 / 48000⟩ :: units)

/-- `_emit_audio`. -/
def emitAudio (data : Bytes) (pts : Nat) : TsDemuxer × List TsUnit :=
  if s.audioCodec = some .opus then emitOpus pts 0 (opusSplit data) s
  else emitAdts pts 0 (adtsSplit data) s

/-- The timestamp of a PES: its own, or the last one of its PID. -/
def pesPts (pid : Nat) (pes : Bytes) : TsDemuxer × Option Nat :=
  if octet pes 7 &&& 0x80 ≠ 0 ∧ 14 ≤ pes.length then
    let (s, pts) := s.unwrap pid (ptsAt pes 9)
    (s, some pts)
  else (s, (s.lastPts.get? pid).map fun (last, base) => base + last)

/-- `_emit_pes`. -/
def emitPes (pid : Nat) (pes : Bytes) : Demuxed :=
  if pes.length < 9 ∨ octet pes 0 ≠ 0 ∨ octet pes 1 ≠ 0 ∨ octet pes 2 ≠ 1 then .ok (s, [])
  else
    let (s, pts) := s.pesPts pid pes
    let data := pes.drop (9 + octet pes 8)
    match pts with
    | none => .ok (s, [])
    | some pts =>
        if data = [] then .ok (s, [])
        else if some pid = s.videoPid then s.emitVideo data pts
        else .ok (s.emitAudio data pts)

/-- The PES of a PID is complete. -/
def popPes (pid : Nat) : Demuxed :=
  match s.pes.get? pid with
  | none => .ok (s, [])
  | some pes => { s with pes := s.pes.erase pid }.emitPes pid pes

/-- The end of `_es`: a bounded PES ends with its length, an unbounded one at stuffing. -/
def endPes (pid : Nat) (stuffed : Bool) : Demuxed :=
  match s.pes.get? pid with
  | none => .ok (s, [])
  | some pes =>
      let length := (octet pes 4 <<< 8) ||| octet pes 5
      if pes.length < 6 then .ok (s, [])
      else if length ≠ 0 ∧ 6 + length ≤ pes.length then s.popPes pid
      else if length = 0 ∧ stuffed ∧ s.eagerVideo ∧ some pid = s.videoPid then do
        let (s, units) ← s.popPes pid
        return ({ s with ended := insert pid s.ended }, units)
      else .ok (s, [])

/-- `_es`. -/
def es (pid : Nat) (payload : Bytes) (pusi stuffed : Bool) : Demuxed :=
  if pusi then do
    let (s, units) ← s.popPes pid
    let s := { s with
      skip := s.skip.erase pid
      ended := s.ended.erase pid
      pes := s.pes.insert pid payload }
    let (s, more) ← s.endPes pid stuffed
    return (s, units ++ more)
  else if pid ∈ s.ended then
    -- the unit already sent was cut short
    .ok ({ s with
      ended := s.ended.erase pid
      skip := insert pid s.skip
      eagerVideo := false }, [])
  else match s.pes.get? pid with
    | none => .ok (s, [])
    | some pes =>
        if pid ∈ s.skip then .ok (s, [])
        else { s with pes := s.pes.insert pid (pes ++ payload) }.endPes pid stuffed

/-! ### Packets -/

/-- The continuity counter of a packet; `none` for a duplicate. -/
def noteCc (pid cc : Nat) : Option TsDemuxer :=
  match s.cc.get? pid with
  | none => some { s with cc := s.cc.insert pid cc }
  | some last =>
      if cc = last then none
      else if cc = (last + 1) % 16 then some { s with cc := s.cc.insert pid cc }
      else some { s with
        ccErrors := s.ccErrors + 1
        skip := if (s.pes.get? pid).isSome then insert pid s.skip else s.skip
        pes := s.pes.erase pid
        cc := s.cc.insert pid cc }

/-- The payload of a packet goes where its PID says. -/
def route (pid : Nat) (payload : Bytes) (pusi stuffed : Bool) : Demuxed :=
  if pid = 0 then .ok (s.pat payload pusi, [])
  else if some pid = s.pmtPid then do
    let s ← s.pmt payload pusi
    return (s, [])
  else if some pid = s.videoPid ∨ some pid = s.audioPid then s.es pid payload pusi stuffed
  else .ok (s, [])

/-- `_packet`. -/
def packet (pkt : Bytes) : Demuxed := do
  let pid := ((octet pkt 1 &&& 0x1F) <<< 8) ||| octet pkt 2
  let pusi : Bool := octet pkt 1 &&& 0x40 ≠ 0
  let afc := (octet pkt 3 >>> 4) &&& 3
  let cc := octet pkt 3 &&& 0xF
  -- transport_error_indicator, null packets, packets without a payload
  if octet pkt 1 &&& 0x80 ≠ 0 ∨ pid = 0x1FFF ∨ afc &&& 1 = 0 then return (s, [])
  let stuffed ← if afc &&& 2 ≠ 0 then afStuffed pkt pusi else pure false
  let off := if afc &&& 2 ≠ 0 then 5 + octet pkt 4 else 4
  if tsPacket ≤ off then return (s, [])
  match s.noteCc pid cc with
  | none => return (s, [])
  | some s => s.route pid (pkt.drop off) pusi stuffed

/-- `_packet` of one packet after another. -/
def packets : TsDemuxer → List Bytes → Demuxed
  | s, [] => .ok (s, [])
  | s, pkt :: pkts => do
      let (s, units) ← s.packet pkt
      let (s, more) ← packets s pkts
      return (s, units ++ more)

/-- The last PES of each PID. -/
def emitAll : TsDemuxer → List (Nat × Bytes) → Demuxed
  | s, [] => .ok (s, [])
  | s, (pid, pes) :: rest => do
      let (s, units) ← s.emitPes pid pes
      let (s, more) ← emitAll s rest
      return (s, units ++ more)

end TsDemuxer

/-! ### The byte stream -/

/-- A `TsDemuxer` with its `_buf`. -/
structure TsStream where
  buf : Bytes := []
  demuxer : TsDemuxer := {}

namespace TsStream

/-- Where `feed` does not take a packet: no sync byte, or none behind the packet. -/
def outOfSync (buf : Bytes) : Bool :=
  buf[0]? ≠ some 0x47 || (2 * tsPacket ≤ buf.length && buf[tsPacket]? ≠ some 0x47)

/-- The loop of `feed`: the packets taken, and the bytes left. -/
def sync : Nat → Bytes → List Bytes × Bytes
  | 0, buf => ([], buf)
  | fuel + 1, buf =>
      if buf.length < tsPacket then ([], buf)
      else if outOfSync buf then sync fuel (buf.drop 1)
      else
        let (pkts, rest) := sync fuel (buf.drop tsPacket)
        (buf.take tsPacket :: pkts, rest)

/-- `feed`. -/
def feed (s : TsStream) (chunk : Bytes) : Except RecordError (TsStream × List TsUnit) := do
  let buf := s.buf ++ chunk
  let (pkts, rest) := sync buf.length buf
  let (demuxer, units) ← s.demuxer.packets pkts
  return (⟨rest, demuxer⟩, units)

/-- `close`. -/
def close (s : TsStream) : Except RecordError (TsStream × List TsUnit) := do
  let (demuxer, units) ← s.demuxer.emitAll s.demuxer.pes.entries
  return (⟨[], { demuxer with pes := .empty }⟩, units)

/-- `feed` of one chunk after another: the units that were returned, and what is left of the
demuxer, or what a feed raised. -/
def feedAll : TsStream → List Bytes → List TsUnit × Except RecordError TsStream
  | s, [] => ([], .ok s)
  | s, chunk :: chunks =>
      match s.feed chunk with
      | .error e => ([], .error e)
      | .ok (s, units) =>
          let (more, left) := feedAll s chunks
          (units ++ more, left)

/-- A stream in chunks, and its end. -/
def demux (chunks : List Bytes) : List TsUnit × Except RecordError TsStream :=
  let (units, left) := feedAll {} chunks
  match left >>= close with
  | .error e => (units, .error e)
  | .ok (s, last) => (units ++ last, .ok s)

end TsStream

end AioMoqt.Media
