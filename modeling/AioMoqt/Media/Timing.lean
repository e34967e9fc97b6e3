import AioMoqt.Messages.Params
import Mathlib.Data.Int.Bitwise
import Mathlib.Data.Rat.Floor

/-!
# Capture times

`utils/timing.py`: the timing properties that a generated or a media track writes, and how the
capture time of an object is read off them.
-/

namespace AioMoqt.Media

open AioMoqt.Lib AioMoqt.Lib.BigEndian AioMoqt.Messages

/-! ## Code points -/

namespace TimingId

/-- `TIMESCALE`. -/
def timescale : Nat := 0x2C7A51E0

/-- `CLOCK_ID`. -/
def clockId : Nat := 0x3E8D2B70

/-- `TIMESTAMP_ORIGIN`. -/
def timestampOrigin : Nat := 0x31B49A6E

/-- `TIMESTAMP_MAPPING`. -/
def timestampMapping : Nat := 0x27F308C5

/-- `OBJECT_TIMESTAMP`. -/
def objectTimestamp : Nat := 0x2D1A

/-- `LOC_TIMESTAMP`. -/
def locTimestamp : Nat := 0x10

/-- `LOC_TIMESCALE`. -/
def locTimescale : Nat := 0x08

/-- `BENCH_TIMESTAMP`. -/
def benchTimestamp : Nat := 0x20

/-- `TRACK_IDS`. -/
def track : List Nat := [timescale, clockId, timestampOrigin, timestampMapping]

/-- `TIMING_IDS`. -/
def timing : List Nat := track ++ [objectTimestamp]

/-- `_name`. -/
def name (ptype : Nat) : String :=
  if ptype = timescale then "TIMESCALE"
  else if ptype = clockId then "CLOCK_ID"
  else if ptype = timestampOrigin then "TIMESTAMP_ORIGIN"
  else if ptype = timestampMapping then "TIMESTAMP_MAPPING"
  else if ptype = objectTimestamp then "OBJECT_TIMESTAMP"
  else "0x" ++ hex ptype

end TimingId

/-- What the module raises. -/
inductive TimingError where
  /-- `TimestampMalformed`. -/
  | malformed (reason : String)
  | valueError (reason : String)
  | zeroDivision
deriving Repr, DecidableEq

/-- The value of a property: a Python int, or bytes. -/
inductive PropertyValue where
  | int (v : Int)
  | bytes (v : Bytes)
deriving Repr, DecidableEq

/-- The properties of a track or an object. -/
abbrev Properties : Type := Dict Nat PropertyValue

def PropertyValue.int? : PropertyValue → Option Int
  | .int v => some v
  | .bytes _ => none

def PropertyValue.bytes? : PropertyValue → Option Bytes
  | .int _ => none
  | .bytes v => some v

/-! ## Codecs -/

/-- `(c << 1) ^ (c >> 63)`. -/
def zigzagWrite (c : Int) : Int := Int.xor (2 * c) (c >>> (63 : Nat))

/-- `zigzag_decode`. -/
def zigzagDecode (u : Int) : Int := Int.xor (u >>> (1 : Nat)) (-Int.land u 1)

/-- The four integers of TIMESTAMP_MAPPING. -/
structure TimestampMapping where
  baseGroup : Nat
  baseTimestamp : Nat
  groupMultiplier : Nat
  objectMultiplier : Nat
deriving Repr, DecidableEq

/-- `encode_mapping`. -/
def encodeMapping (m : TimestampMapping) : Except TimingError Bytes :=
  let values := [m.baseGroup, m.baseTimestamp, m.groupMultiplier, m.objectMultiplier]
  if ∀ v ∈ values, v < Buffer.vi64.bound then .ok (Buffer.vi64.encList values)
  else .error (.valueError "value outside the integer range")

/-- `_four_ints`. -/
def fourInts (raw : Bytes) (vi64 : Bool) : Option TimestampMapping :=
  match (if vi64 then Buffer.vi64 else Buffer.rfc9000).decList raw with
  | some [baseGroup, baseTimestamp, groupMultiplier, objectMultiplier] =>
      some ⟨baseGroup, baseTimestamp, groupMultiplier, objectMultiplier⟩
  | _ => none

/-- `decode_mapping`. -/
def decodeMapping (raw : Bytes) (vi64 : Bool) : Except TimingError TimestampMapping :=
  match fourInts raw true, if vi64 then none else fourInts raw false with
  | some m, _ => .ok m
  | none, some m => .ok m
  | none, none => .error (.malformed "TIMESTAMP_MAPPING is not four integers")

/-! ## Reading -/

/-- `TrackTiming`. -/
structure TrackTiming where
  timescale : Option Int := none
  clockId : Int := 0
  origin : Int := 0
  mapping : Option TimestampMapping := none
  locTimescale : Option Int := none
  wall : Bool := clockId = 0
  plain : Bool := timescale.isNone && locTimescale.isNone
deriving Repr, DecidableEq

/-- Python's `//`. -/
def floorDiv (a b : Int) : Int := a.fdiv b

/-- The Object Properties of one object; `duplicates` when the codec marked them. -/
structure ObjectProperties where
  props : Properties
  duplicates : Option (List Nat) := none

/-- `check_object_properties`. -/
def checkObjectProperties (exts : ObjectProperties) : Except TimingError Unit :=
  match TimingId.track.find? fun ptype => ptype ∈ exts.props.keys with
  | some ptype => .error (.malformed (TimingId.name ptype ++ " as an Object Property"))
  | none =>
      if TimingId.objectTimestamp ∈ exts.duplicates.getD [] then
        .error (.malformed "OBJECT_TIMESTAMP appears more than once")
      else .ok ()

/-- An integer property. -/
def Properties.int? (props : Properties) (ptype : Nat) : Option Int :=
  (props.get? ptype).bind PropertyValue.int?

namespace TrackTiming

/-- `from_properties`. -/
def fromProperties (props : Properties) (vi64 : Bool) (duplicates : List Nat) :
    Except TimingError TrackTiming := do
  if let some ptype := TimingId.timing.find? (· ∈ duplicates) then
    throw (.malformed (TimingId.name ptype ++ " appears more than once"))
  if TimingId.objectTimestamp ∈ props.keys then
    throw (.malformed "OBJECT_TIMESTAMP as a Track Property")
  let locTimescale := props.int? TimingId.locTimescale
  if ∀ ptype ∈ TimingId.track, ptype ∉ props.keys then return { locTimescale }
  match props.int? TimingId.timescale with
  | none | some 0 => throw (.malformed "TIMESCALE missing or 0")
  | some timescale =>
      let clockId := props.int? TimingId.clockId
      let origin := props.int? TimingId.timestampOrigin
      if origin.isSome ∧ clockId.isNone then
        throw (.malformed "TIMESTAMP_ORIGIN without CLOCK_ID")
      let mapping ← match (props.get? TimingId.timestampMapping).bind PropertyValue.bytes? with
        | none => pure none
        | some raw => some <$> decodeMapping raw vi64
      return { timescale := some timescale, clockId := clockId.getD 0, origin := origin.getD 0
               mapping, locTimescale }

/-- `timestamp`, of an object whose properties may be none. -/
def timestamp (timing : TrackTiming) (group object : Nat) (exts : ObjectProperties) :
    Except TimingError (Option Int) := do
  let ots := exts.props.int? TimingId.objectTimestamp
  if (∃ ptype ∈ TimingId.track, ptype ∈ exts.props.keys) ∨
      (ots.isSome ∧ exts.duplicates.isSome) then
    checkObjectProperties exts
  let ts := match timing.mapping, ots with
    | some m, ots => some ((m.baseTimestamp : Int) + ((group : Int) - m.baseGroup) *
        m.groupMultiplier + object * m.objectMultiplier + (ots.map zigzagDecode).getD 0)
    | none, ots => ots
  match ts with
  | none => return none
  | some ts =>
      if ts < 0 ∨ (Messages.u64Max : Int) < ts then
        throw (.malformed (s!"timestamp {ts} outside 0..2^64-1"))
      else return some ts

end TrackTiming

/-- Where a capture time came from. -/
inductive TimeSource where
  | frindell
  | loc
  | bench
deriving Repr, DecidableEq

/-- `capture_time_us`: the capture time with its source, and the context that an object's
LOC TIMESCALE changes. -/
def captureTimeUs (timing : Option TrackTiming) (group object : Nat) (exts : ObjectProperties) :
    Except TimingError (Option TrackTiming × Option (Int × TimeSource)) := do
  let declared := timing.bind fun timing => timing.timescale.map fun timescale => (timing, timescale)
  let ts ← match declared with
    | some (timing, timescale) => do
        let ts ← timing.timestamp group object exts
        pure (if timing.wall then
          ts.map fun ts => floorDiv ((timing.origin + ts) * 1000000) timescale else none)
    | none =>
        if ∃ ptype ∈ TimingId.timing, ptype ∈ exts.props.keys then do
          checkObjectProperties exts
          throw (.malformed "OBJECT_TIMESTAMP without TIMESCALE")
        else pure none
  let bench := (exts.props.int? TimingId.benchTimestamp).map fun ts => (ts, TimeSource.bench)
  match ts with
  | some ts => return (timing, some (ts, .frindell))
  | none =>
      if TimingId.locTimescale ∈ exts.props.keys then
        return (timing.map fun timing => { timing with
          locTimescale := exts.props.int? TimingId.locTimescale, plain := false }, bench)
      else match timing.bind TrackTiming.locTimescale, exts.props.int? TimingId.locTimestamp with
        | none, some ts => return (timing, some (ts, .loc))
        | _, _ => return (timing, bench)

/-! ## Generated tracks -/

/-- The loop of `Fraction.limit_denominator`: the convergents up to the bound. -/
def convergents (max : Nat) : Nat → Nat → Nat → Nat → Nat → Nat → Nat → Nat × Nat × Nat × Nat × Nat
  | 0, p0, q0, p1, q1, _, d => (p0, q0, p1, q1, d)
  | fuel + 1, p0, q0, p1, q1, n, d =>
      let a := n / d
      let q2 := q0 + a * q1
      if max < q2 then (p0, q0, p1, q1, d)
      else convergents max fuel p1 q1 (p0 + a * p1) q2 d (n - a * d)

/-- `Fraction.limit_denominator`, of a positive number. -/
def limitDenominator (r : ℚ) (max : Nat) : ℚ :=
  if r.den ≤ max then r
  else
    let (p0, q0, p1, q1, d) := convergents max r.den 0 1 1 0 r.num.toNat r.den
    let k := (max - q0) / q1
    if 2 * d * (q0 + k * q1) ≤ r.den then (p1 : ℚ) / q1
    else ((p0 + k * p1 : Nat) : ℚ) / ((q0 + k * q1 : Nat) : ℚ)

/-- `TIMESTAMP_MODES`. -/
inductive TimestampMode where
  | loc
  | frindell
  | both
deriving Repr, DecidableEq

/-- `TimestampWriter`. -/
structure TimestampWriter where
  loc : Bool
  frindell : Bool
  mapping : Option TimestampMapping
  timescale : Nat
  wallUs : Nat
deriving Repr, DecidableEq

namespace TimestampWriter

/-- `_k`. -/
def k (w : TimestampWriter) : Nat := w.timescale / 1000000

/-- `__init__`. -/
def init (mode : TimestampMode) (rate : ℚ) (groupSize firstGroup wallUs : Nat) :
    Except TimingError TimestampWriter :=
  let loc : Bool := mode = .loc ∨ mode = .both
  let frindell : Bool := mode = .frindell ∨ mode = .both
  if 0 < rate then
    let r := limitDenominator rate 1001
    let p := r.num.toNat
    let q := r.den
    let timescale := 1000000 * p / (1000000 * q).gcd p
    if p = 0 then .error .zeroDivision
    else
      let om := timescale * q / p
      .ok { loc, frindell, timescale, wallUs
            mapping := some ⟨firstGroup, wallUs * (timescale / 1000000), om * groupSize, om⟩ }
  else .ok { loc, frindell, mapping := none, timescale := 1000000, wallUs }

variable (w : TimestampWriter)

/-- `track_properties`, the same for both varint flavours. -/
def trackProperties (_vi64 : Bool) : Except TimingError Properties :=
  if !w.frindell then .ok .empty
  else match w.mapping with
    | none => .ok (.ofEntries [(TimingId.timescale, .int w.timescale)])
    | some m => do
        let raw ← encodeMapping m
        return .ofEntries [(TimingId.timescale, .int w.timescale),
          (TimingId.timestampMapping, .bytes raw)]

/-- The ticks the mapping schedules an object at. -/
def scheduled (m : TimestampMapping) (group object : Nat) : Int :=
  (m.baseTimestamp : Int) + ((group : Int) - m.baseGroup) * m.groupMultiplier +
    object * m.objectMultiplier

/-- `scheduled_us`. -/
def scheduledUs (group object : Nat) : Option Int :=
  w.mapping.map fun m => floorDiv (scheduled m group object) w.k

/-- `next_group`. -/
def nextGroup (nowUs atLeast : Nat) : Int :=
  match w.mapping with
  | none => atLeast
  | some m =>
      let ahead := (nowUs : Int) * w.k - m.baseTimestamp
      let due := (m.baseGroup : Int) + max 0 (-floorDiv (-ahead) m.groupMultiplier)
      max (atLeast : Int) due

/-- Actual minus scheduled send time, in ticks. -/
def correction (m : TimestampMapping) (group object now : Nat) : Int :=
  (now : Int) * w.k - scheduled m group object

/-- `stamp`, at `now`. -/
def stamp (now group object : Nat) : Properties :=
  let exts : Properties :=
    if w.loc then .ofEntries [(TimingId.locTimestamp, .int now)] else .empty
  if !w.frindell then exts
  else match w.mapping with
    | none => exts.insert TimingId.objectTimestamp (.int now)
    | some m =>
        let c := w.correction m group object now
        if c ≠ 0 then exts.insert TimingId.objectTimestamp (.int (zigzagWrite c)) else exts

end TimestampWriter

/-! ## Media tracks -/

/-- `round_us`. -/
def roundUs (t : ℚ) : Int := if t.den = 1 then t.num else ⌊t + 1 / 2⌋

/-- `MediaTimestamps`, but for the last group it gave out. -/
structure MediaTimestamps where
  wall0Us : Nat
  mapped : Bool
  timescale : Nat
  groupMultiplier : Nat
  objectMultiplier : Nat
deriving Repr, DecidableEq

namespace MediaTimestamps

/-- `__init__`. -/
def init (wall0Us timescale : Nat) (groupMultiplier : Option Nat) (objectMultiplier : Nat) :
    MediaTimestamps where
  wall0Us := wall0Us
  mapped := groupMultiplier.isSome
  timescale := if groupMultiplier.isSome then timescale else 1000000
  groupMultiplier := groupMultiplier.getD 0
  objectMultiplier := objectMultiplier

variable (m : MediaTimestamps)

/-- `base`. -/
def base : Nat := m.wall0Us * m.timescale / 1000000

/-- The mapping of the track. -/
def mapping : TimestampMapping := ⟨0, m.base, m.groupMultiplier, m.objectMultiplier⟩

/-- `track_properties`, the same for both varint flavours. -/
def trackProperties (_vi64 : Bool) : Except TimingError Properties :=
  if !m.mapped then .ok (.ofEntries [(TimingId.timescale, .int m.timescale)])
  else do
    let raw ← encodeMapping m.mapping
    return .ofEntries [(TimingId.timescale, .int m.timescale),
      (TimingId.timestampMapping, .bytes raw)]

/-- `_ticks`. -/
def ticks (captureUs : ℚ) : Int :=
  let d := (captureUs - m.wall0Us) * m.timescale
  ⌊(2 * d + 1000000) / 2000000⌋

/-- The correction of an object off schedule. -/
def correction (captureUs : ℚ) (group object : Nat) : Int :=
  m.ticks captureUs - (group * m.groupMultiplier + object * m.objectMultiplier)

/-- `object_properties`. -/
def objectProperties (group object : Nat) (captureUs : ℚ) : Properties :=
  if !m.mapped then .ofEntries [(TimingId.objectTimestamp, .int (roundUs captureUs))]
  else
    let c := m.correction captureUs group object
    if c ≠ 0 then .ofEntries [(TimingId.objectTimestamp, .int (zigzagWrite c))] else .empty

end MediaTimestamps

end AioMoqt.Media
