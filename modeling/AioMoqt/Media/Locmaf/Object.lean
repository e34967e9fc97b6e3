import AioMoqt.Media.Locmaf.BuildChunk

/-!
# LOCMAF Objects

The header fields of an Object, the wire form of a full and of a delta header,
and `serialize_object` / `parse_object`.  Integers are MOQT `vi64`, here any
prefix code for the 64-bit naturals.
-/

namespace AioMoqt.Media.Locmaf

open AioMoqt.Lib AioMoqt.Lib.BigEndian

/-! ## Header fields -/

/-- Even ids: one `vi64`. -/
inductive ScalarId where
  | sampleDescriptionIndex | defaultSampleDuration | defaultSampleSize | defaultSampleFlags
  | baseMediaDecodeTime | firstSampleFlags | sampleCount | ivSize
deriving Repr, DecidableEq

/-- Odd ids whose value is a run of unsigned integers. -/
inductive ListId where
  | sampleSizes | sampleDurations | sampleFlags | subsampleCounts | clearBytes
  | protectedBytes
deriving Repr, DecidableEq

/-- Header field ids; `deleted` (27) occurs in delta headers only. -/
inductive FieldId where
  | scalar (id : ScalarId)
  | list (id : ListId)
  | compositionOffsets
  | ivs
  | deleted
deriving Repr, DecidableEq

def ScalarId.code : ScalarId → Nat
  | .sampleDescriptionIndex => 2
  | .defaultSampleDuration => 4
  | .defaultSampleSize => 6
  | .defaultSampleFlags => 8
  | .baseMediaDecodeTime => 10
  | .firstSampleFlags => 12
  | .sampleCount => 14
  | .ivSize => 16

def ListId.code : ListId → Nat
  | .sampleSizes => 1
  | .sampleDurations => 3
  | .sampleFlags => 7
  | .subsampleCounts => 11
  | .clearBytes => 13
  | .protectedBytes => 15

def FieldId.code : FieldId → Nat
  | .scalar id => id.code
  | .list id => id.code
  | .compositionOffsets => 5
  | .ivs => 9
  | .deleted => 27

/-- Every field id, ascending. -/
def FieldId.all : List FieldId :=
  [.list .sampleSizes, .scalar .sampleDescriptionIndex, .list .sampleDurations,
    .scalar .defaultSampleDuration, .compositionOffsets, .scalar .defaultSampleSize,
    .list .sampleFlags, .scalar .defaultSampleFlags, .ivs, .scalar .baseMediaDecodeTime,
    .list .subsampleCounts, .scalar .firstSampleFlags, .list .clearBytes,
    .scalar .sampleCount, .list .protectedBytes, .scalar .ivSize, .deleted]

/-- The field a known id names. -/
def FieldId.ofCode? (code : Nat) : Option FieldId := FieldId.all.find? fun f => f.code = code

/-- A represented value: absolute integers, signed composition offsets. -/
abbrev FieldId.Value : FieldId → Type
  | .scalar _ => Nat
  | .list _ => List Nat
  | .compositionOffsets => List Int
  | .ivs => Bytes
  | .deleted => List Nat

/-- A wire value: every integer is a `vi64`. -/
abbrev FieldId.Wire : FieldId → Type
  | .scalar _ => Nat
  | .list _ => List Nat
  | .compositionOffsets => List Nat
  | .ivs => Bytes
  | .deleted => List Nat

/-- The fields of one chunk, keyed by id. -/
abbrev Fields := (f : FieldId) → Option f.Value

/-- The fields of one header as carried. -/
abbrev WireFields := (f : FieldId) → Option f.Wire

/-- One Object as carried: a rawBoxes Object, or genBoxes, one header's fields
as wire values and the mdat payload. -/
inductive LocmafObject where
  | raw (boxes : Bytes)
  | moof (full : Bool) (fields : WireFields) (genBoxes : List GenBox) (mdat : Bytes)

/-! ## Represented fields and their wire forms -/

def zigzag (n : Int) : Nat := if 0 ≤ n then (2 * n).toNat else (-2 * n - 1).toNat

def unzigzag (z : Nat) : Int := if z % 2 = 1 then -(((z + 1) / 2 : Nat) : Int) else (z / 2 : Nat)

theorem unzigzag_zigzag (n : Int) : unzigzag (zigzag n) = n := by
  unfold zigzag unzigzag
  split <;> split <;> omega

/-- The chunk's represented fields: the minimal absolute set the emission rules
allow, the shape both sides keep as the reference. -/
def represent (eff : EffectiveValues) (sencIv : Option Nat) (ctx : TrackContext) : Fields
  | .scalar .sampleCount => some eff.sampleCount
  | .scalar .baseMediaDecodeTime => some eff.bmdt
  | .scalar .sampleDescriptionIndex =>
      if eff.sampleDescriptionIndex ≠ ctx.defaultSampleDescriptionIndex
      then some eff.sampleDescriptionIndex else none
  | .list .sampleDurations => if uniform eff.durations then none else some eff.durations
  | .scalar .defaultSampleDuration =>
      if uniform eff.durations then unlessDefault ctx.defaultSampleDuration eff.durations
      else none
  | .list .sampleSizes =>
      if 1 < eff.sampleCount ∧ ¬ uniform eff.sizes then some eff.sizes.dropLast else none
  | .scalar .defaultSampleSize =>
      if 1 < eff.sampleCount ∧ uniform eff.sizes
      then unlessDefault ctx.defaultSampleSize eff.sizes else none
  | .scalar .defaultSampleFlags =>
      if uniform eff.flags then unlessDefault ctx.defaultSampleFlags eff.flags
      else if allButFirst eff.flags
      then unlessDefault ctx.defaultSampleFlags (eff.flags.drop 1) else none
  | .scalar .firstSampleFlags =>
      if ¬ uniform eff.flags ∧ allButFirst eff.flags then eff.flags.head? else none
  | .list .sampleFlags =>
      if ¬ uniform eff.flags ∧ ¬ allButFirst eff.flags then some eff.flags else none
  | .compositionOffsets => if eff.ctos.any (· ≠ 0) then some eff.ctos else none
  | .scalar .ivSize => sencIv.bind fun iv => if iv ≠ ctx.ivSize then some iv else none
  | .ivs => sencIv.bind fun iv => if iv ≠ 0 then some eff.ivs else none
  | .list .subsampleCounts => sencIv.bind fun _ => eff.subsampleCounts
  | .list .clearBytes => sencIv.bind fun _ => eff.subsampleCounts.map fun _ => eff.clearBytes
  | .list .protectedBytes =>
      sencIv.bind fun _ => eff.subsampleCounts.map fun _ => eff.protectedBytes
  | .deleted => none

def fullWire (fields : Fields) : WireFields
  | .compositionOffsets => (fields .compositionOffsets).map (·.map zigzag)
  | .scalar id => fields (.scalar id)
  | .list id => fields (.list id)
  | .ivs => fields .ivs
  | .deleted => fields .deleted

/-- Zigzag deltas of a list against a previous one, whose missing elements count as 0. -/
def listDelta : List Int → List Int → List Nat
  | [], _ => []
  | x :: xs, [] => zigzag x :: listDelta xs []
  | x :: xs, p :: ps => zigzag (x - p) :: listDelta xs ps

/-- The ids of `prev` that left, ascending. -/
def goneIds (cur prev : Fields) : List Nat :=
  (FieldId.all.filter fun f => (prev f).isSome ∧ (cur f).isNone).map FieldId.code

/-- Exactly the fields whose represented values changed, as zigzag deltas (bytes
overwrite), plus the ids that left the reference. -/
def deltaWire (cur prev : Fields) : WireFields
  | .scalar id =>
      match cur (.scalar id) with
      | none => none
      | some v =>
          if id = .baseMediaDecodeTime ∨ prev (.scalar id) = some v then none
          else some (zigzag ((v : Int) - ((prev (.scalar id)).getD 0 : Nat)))
  | .ivs =>
      match cur .ivs with
      | none => none
      | some v => if v ≠ (prev .ivs).getD [] then some v else none
  | .list id =>
      match cur (.list id) with
      | none => none
      | some v =>
          let p := (prev (.list id)).getD []
          if v ≠ p then some (listDelta (v.map Int.ofNat) (p.map Int.ofNat)) else none
  | .compositionOffsets =>
      match cur .compositionOffsets with
      | none => none
      | some v =>
          let p := (prev .compositionOffsets).getD []
          if v ≠ p then some (listDelta v p) else none
  | .deleted => if goneIds cur prev = [] then none else some (goneIds cur prev)

/-! ## Serialization -/

/-- One or more complete boxes with 32-bit sizes of at least 8, tiling `data`
exactly; the message of the first violation otherwise. -/
def rawBoxesFault (data : Bytes) : Nat → Nat → Option String
  | fuel, pos =>
    if data.length ≤ pos then none
    else match fuel with
      | 0 => some "out of fuel"
      | fuel + 1 =>
        let size := ofBE ((data.drop pos).take 4)
        if data.length - pos < 8 then some s!"truncated box header at {pos} in rawBoxes"
        else if size < 8 then some s!"box size {size} at {pos} in rawBoxes"
        else if data.length - pos < size then
          some s!"box at {pos} exceeds the rawBoxes content"
        else rawBoxesFault data fuel (pos + size)

def checkRawBoxes (data : Bytes) (error : String → LocmafError) : Except LocmafError Unit :=
  if data = [] then .error (error "empty rawBoxes content")
  else match rawBoxesFault data data.length 0 with
    | some reason => .error (error reason)
    | none => .ok ()

section Wire

variable (code : PrefixCode)

/-- `push_uint_vi64`; a value outside the code raises. -/
def pushInt (v : Nat) : Except LocmafError Bytes :=
  if v < code.bound then .ok (code.enc v) else .error .struct

def pushInts (vs : List Nat) : Except LocmafError Bytes :=
  if vs.all (· < code.bound) then .ok (code.encList vs) else .error .struct

/-- A length-prefixed byte string. -/
def pushSized (raw : Bytes) : Except LocmafError Bytes := do
  let len ← pushInt code raw.length
  return len ++ raw

/-- A field's value after its id. -/
def pushValue : (f : FieldId) → f.Wire → Except LocmafError Bytes
  | .scalar _, v => pushInt code v
  | .ivs, raw => pushSized code raw
  | .list _, vs => do pushSized code (← pushInts code vs)
  | .compositionOffsets, vs => do pushSized code (← pushInts code vs)
  | .deleted, vs => do pushSized code (← pushInts code vs)

/-- The fields of `ids` that are present, in that order. -/
def pushFields (wire : WireFields) : List FieldId → Except LocmafError Bytes
  | [] => .ok []
  | f :: ids =>
      match wire f with
      | none => pushFields wire ids
      | some v => do
          let id ← pushInt code f.code
          let value ← pushValue code f v
          let rest ← pushFields wire ids
          return id ++ value ++ rest

def propsBytes (wire : WireFields) : Except LocmafError Bytes :=
  pushFields code wire FieldId.all

def elementGenBox : Nat := 1
def elementFullHeader : Nat := 2
def elementDeltaHeader : Nat := 3
def elementRawBoxes : Nat := 4

def pushGenBoxes : List GenBox → Except LocmafError Bytes
  | [] => .ok []
  | box :: boxes =>
      let name := bytesRepr box.name
      if box.name.length ≠ 4 then .error (.source s!"genBox name {name} is not a FourCC")
      else if 0xFFFFFFFB < 4 + box.payload.length then
        .error (.source s!"genBox {name} too large")
      else do
        let tag ← pushInt code elementGenBox
        let size ← pushInt code (4 + box.payload.length)
        let rest ← pushGenBoxes boxes
        return tag ++ size ++ box.name ++ box.payload ++ rest

/-- Canonical serialization: genBoxes in order, header fields in ascending id
order, shortest integer forms. -/
def serializeObject : LocmafObject → Except LocmafError Bytes
  | .raw boxes => do
      checkRawBoxes boxes .source
      let tag ← pushInt code elementRawBoxes
      return tag ++ boxes
  | .moof full fields genBoxes mdat => do
      let gen ← pushGenBoxes code genBoxes
      let props ← propsBytes code fields
      let tag ← pushInt code (if full then elementFullHeader else elementDeltaHeader)
      let sized ← pushSized code props
      return gen ++ tag ++ sized ++ mdat

/-! ## Parsing -/

/-- `pull_uint_vi64`, a short read being a truncated integer. -/
def pullInt (data : Bytes) : Except LocmafError (Nat × Bytes) :=
  match code.dec data with
  | some r => .ok r
  | none => .error (.malformed "truncated integer")

/-- The value of a known field after its id and, for odd ids, its extent. -/
def readValue (f : FieldId) (raw : Bytes) : Except LocmafError (Option f.Wire) :=
  let ints : Except LocmafError (Option (List Nat)) :=
    match code.decList raw with
    | some vs => .ok (some vs)
    | none => .error (.malformed "truncated integer")
  match f with
  | .ivs => .ok (some raw)
  | .list _ => ints
  | .compositionOffsets => ints
  | .deleted => ints
  | .scalar _ => .ok none

/-- Wire values of the known fields; unknown ids are skipped by their parity
framing.  Every field takes at least one byte, so the length is fuel enough. -/
def parseFields : Nat → Bytes → List Nat → WireFields → Except LocmafError WireFields
  | _, [], _, out => .ok out
  | 0, _ :: _, _, _ => .error (.malformed "out of fuel")
  | fuel + 1, b :: data, seen, out => do
      let (id, rest) ← pullInt code (b :: data)
      if id ∈ seen then throw (.malformed s!"field {id} repeated in one header")
      if id % 2 = 0 then
        let (value, rest) ← pullInt code rest
        match FieldId.ofCode? id with
        | some (.scalar s) =>
            parseFields fuel rest (id :: seen) (Function.update out (.scalar s) (some value))
        | _ => parseFields fuel rest (id :: seen) out
      else
        let (length, rest) ← pullInt code rest
        if rest.length < length then
          throw (.malformed s!"field {id} overruns the property block")
        match FieldId.ofCode? id with
        | some f => do
            let value ← readValue code f (rest.take length)
            parseFields fuel (rest.drop length) (id :: seen) (Function.update out f value)
        | none => parseFields fuel (rest.drop length) (id :: seen) out

def parseProps (props : Bytes) (full : Bool) : Except LocmafError WireFields := do
  let out ← parseFields code props.length props [] fun _ => none
  if full ∧ (out .deleted).isSome then throw (.malformed "field 27 in a full header")
  if ¬ full ∧ (out (.scalar .baseMediaDecodeTime)).isSome then
    throw (.malformed "field 10 in a delta header")
  return out

/-- The elements of an Object payload; every element takes at least one byte. -/
def parseElements : Nat → Bytes → List GenBox → Except LocmafError LocmafObject
  | 0, _, _ => .error (.malformed "object ends before a header element")
  | fuel + 1, data, gen => do
      if data = [] then throw (.malformed "object ends before a header element")
      let (etype, rest) ← pullInt code data
      if etype = elementGenBox then
        let (size, rest) ← pullInt code rest
        if size < 4 ∨ 0xFFFFFFFB < size then
          throw (.malformed s!"genBox box_size {size} out of range")
        if rest.length < size then throw (.malformed "genBox exceeds the object payload")
        parseElements fuel (rest.drop size)
          (gen ++ [⟨rest.take 4, (rest.drop 4).take (size - 4)⟩])
      else if etype = elementFullHeader ∨ etype = elementDeltaHeader then
        let (length, rest) ← pullInt code rest
        if rest.length < length then
          throw (.malformed "property block exceeds the object payload")
        let full := decide (etype = elementFullHeader)
        let fields ← parseProps code (rest.take length) full
        return .moof full fields gen (rest.drop length)
      else if etype = elementRawBoxes then
        if gen ≠ [] then throw (.malformed "rawBoxes element after a genBox")
        checkRawBoxes rest .malformed
        return .raw rest
      else throw (.malformed s!"unknown element_type {etype}")

/-- Parse one Object payload. -/
def parseObject (payload : Bytes) : Except LocmafError LocmafObject :=
  parseElements code (payload.length + 1) payload []

end Wire

end AioMoqt.Media.Locmaf
