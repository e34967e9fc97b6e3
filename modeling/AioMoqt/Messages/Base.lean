import AioMoqt.Context
import AioMoqt.Lib.Dict
import AioMoqt.Lib.Reader

/-!
# Integers and Key-Value-Pair blocks on the wire

`push_vint` and friends, and `_extensions_encode` / `_extensions_decode` of
`messages/base.py`.
-/

namespace AioMoqt.Messages

open AioMoqt.Lib AioMoqt.Lib.BigEndian

/-! ## Failures -/

/-- Why a session is closed. -/
inductive SessionCloseCode where
  | noError | internalError | unauthorized | protocolViolation | invalidRequestId
  | duplicateTrackAlias | keyValueFormattingError | tooManyRequests | invalidPath
  | malformedPath | goawayTimeout | controlMessageTimeout | dataStreamTimeout
  | authTokenCacheOverflow | duplicateAuthTokenAlias | versionNegotiationFailed
  | malformedAuthToken | unknownAuthTokenAlias | expiredAuthToken | invalidAuthority
  | malformedAuthority | tooManyRequestUpdates
deriving Repr, DecidableEq

def SessionCloseCode.code : SessionCloseCode → Nat
  | .noError => 0x0
  | .internalError => 0x01
  | .unauthorized => 0x02
  | .protocolViolation => 0x03
  | .invalidRequestId => 0x04
  | .duplicateTrackAlias => 0x05
  | .keyValueFormattingError => 0x06
  | .tooManyRequests => 0x07
  | .invalidPath => 0x08
  | .malformedPath => 0x09
  | .goawayTimeout => 0x10
  | .controlMessageTimeout => 0x11
  | .dataStreamTimeout => 0x12
  | .authTokenCacheOverflow => 0x13
  | .duplicateAuthTokenAlias => 0x14
  | .versionNegotiationFailed => 0x15
  | .malformedAuthToken => 0x16
  | .unknownAuthTokenAlias => 0x17
  | .expiredAuthToken => 0x18
  | .invalidAuthority => 0x19
  | .malformedAuthority => 0x1A
  | .tooManyRequestUpdates => 0x1B

/-- What the codecs raise. -/
inductive MoqtError where
  /-- `BufferReadError`, `MOQTUnderflow`: the bytes end at `pos`. -/
  | underflow (pos : Nat)
  /-- `MOQTProtocolViolation`. -/
  | violation (reason : String)
  /-- `MOQTMalformedKVP`. -/
  | malformedKvp (reason : String)
  /-- Another `MOQTException`, with the code that closes the session. -/
  | exception (code : SessionCloseCode) (reason : String)
  /-- `MOQTObjectTooLarge`. -/
  | tooLarge (length limit : Nat)
  /-- A `ValueError` of an encoder. -/
  | valueError (reason : String)
  /-- A value outside the field it is pushed to. -/
  | range
  /-- A value of the wrong Python type for its field. -/
  | typeError
deriving Repr, DecidableEq

/-- The code a session closes with when a control message fails so: the exception's
own, and PROTOCOL_VIOLATION for whatever else escapes a decoder. -/
def MoqtError.closeCode : MoqtError → SessionCloseCode
  | .exception code _ => code
  | _ => .protocolViolation

/-- `{n:x}`. -/
def hex (n : Nat) : String := String.ofList (Nat.toDigits 16 n)

/-! ## Integers -/

section Vint

variable (code : PrefixCode)

/-- `push_vint`. -/
def pushVint (v : Int) : Except MoqtError Bytes :=
  if 0 ≤ v ∧ v < code.bound then .ok (code.enc v.toNat) else .error .range

/-- `push_uint8`. -/
def pushUint8 (v : Int) : Except MoqtError Bytes :=
  if 0 ≤ v ∧ v < 256 then .ok [UInt8.ofNat v.toNat] else .error .range

def pullVint : Reader MoqtError Nat := Reader.int code .underflow

def pullUint8 : Reader MoqtError Nat := do
  let b ← Reader.byte .underflow
  return b.toNat

def pullBytes (n : Nat) : Reader MoqtError Bytes := Reader.bytes n .underflow

theorem pushVint_ok {v : Int} (h : 0 ≤ v) (hv : v < code.bound) :
    pushVint code v = .ok (code.enc v.toNat) := if_pos ⟨h, hv⟩

theorem pullVint_reads {v : Nat} (hv : v < code.bound) (pos : Nat) :
    Reader.Reads (pullVint code) pos (code.enc v) v :=
  Reader.Reads.int code _ hv pos

theorem pullUint8_reads {v : Nat} (hv : v < 256) (pos : Nat) :
    Reader.Reads pullUint8 pos [UInt8.ofNat v] v := by
  have hbyte : (UInt8.ofNat v).toNat = v := by simpa using hv
  have hread : Reader.Reads pullUint8 pos [UInt8.ofNat v] (UInt8.ofNat v).toNat := fun _ => rfl
  rwa [hbyte] at hread

end Vint

/-! ## Key-Value-Pairs -/

/-- Even types carry an integer, odd ones a byte string. -/
inductive KvpValue where
  | int (v : Nat)
  | bytes (v : Bytes)
deriving Repr, DecidableEq

/-- A Key-Value-Pair block; `duplicates` names the types seen more than once. -/
structure KeyValuePairs where
  dict : Dict Nat KvpValue
  duplicates : List Nat := []

def extensionsLenLimit : Nat := 1024 * 16
def kvpTypeMax : Nat := 2 ^ 64 - 1
def kvpValueMax : Nat := 2 ^ 16 - 1

section Kvp

variable (code : PrefixCode)

/-- A value in the form its type's parity selects. -/
def pushKvpValue (extId : Nat) : KvpValue → Except MoqtError Bytes
  | .int v => if extId % 2 = 0 then pushVint code v else .error .typeError
  | .bytes v => if extId % 2 = 0 then .error .typeError else do
      let len ← pushVint code v.length
      return len ++ v

/-- The pairs one after the other; with `delta` each type relative to the last. -/
def pushKvps (delta : Bool) : Nat → List (Nat × KvpValue) → Except MoqtError Bytes
  | _, [] => .ok []
  | prev, (extId, value) :: rest => do
      let type ← pushVint code (if delta then (extId : Int) - prev else extId)
      let body ← pushKvpValue code extId value
      let tail ← pushKvps delta extId rest
      return type ++ body ++ tail

/-- Deltas are unsigned, so delta-coded types are emitted in ascending order. -/
def extensionsEncode (exts : Option KeyValuePairs) (withLength delta : Bool) :
    Except MoqtError Bytes :=
  match exts with
  | none => if withLength then pushVint code 0 else .ok []
  | some kvps =>
      if kvps.dict.entries = [] then if withLength then pushVint code 0 else .ok []
      else do
        let payload ← pushKvps code delta 0
          (if delta then kvps.dict.sorted else kvps.dict.entries)
        if withLength then do
          let len ← pushVint code payload.length
          return len ++ payload
        else return payload

/-- How a block is framed and read. -/
structure KvpMode where
  /-- Object Extensions carry their length; Track Extensions run to `buf_end`. -/
  withLength : Bool := true
  delta : Bool := false
  lenient : Bool := true
  /-- `_tolerate_trailing_extensions`. -/
  tolerate : Bool := false

/-- An odd type's byte string. -/
def pullKvpBytes (mode : KvpMode) (extsEnd extId : Nat) : Reader MoqtError Bytes := do
  let valueLen ← pullVint code
  let pos ← Reader.tell
  let type := hex extId
  if kvpValueMax < valueLen then
    Reader.fail (.violation s!"KVP value length {valueLen} over 2^16-1")
  else if extsEnd < pos + valueLen then
    if mode.withLength ∨ ¬ mode.lenient then
      Reader.fail (.malformedKvp
        s!"KVP value length {valueLen} exceeds its block at type 0x{type}")
    else Reader.fail (.underflow pos)
  else pullBytes valueLen

/-- The value of a pair whose absolute type is known. -/
def pullKvpValue (mode : KvpMode) (extsEnd extId : Nat) : Reader MoqtError KvpValue :=
  if extId % 2 = 0 then do
    let v ← pullVint code
    return .int v
  else do
    let v ← pullKvpBytes code mode extsEnd extId
    return .bytes v

/-- One pair: its absolute type and its value. -/
def pullKvp (mode : KvpMode) (extsEnd prev : Nat) : Reader MoqtError (Nat × KvpValue) := do
  let type ← pullVint code
  let extId := if mode.delta then type + prev else type
  if mode.delta ∧ kvpTypeMax < extId then
    Reader.fail (.violation
      s!"KVP Delta Type overflows the Type space: {extId} > 2^64-1")
  else do
    let value ← pullKvpValue code mode extsEnd extId
    return (extId, value)

/-- Store a pair, noting a type that was there already. -/
def KeyValuePairs.put (kvps : KeyValuePairs) (extId : Nat) (value : KvpValue) :
    KeyValuePairs :=
  { dict := kvps.dict.insert extId value
    duplicates := if extId ∈ kvps.dict.keys ∧ extId ∉ kvps.duplicates
      then extId :: kvps.duplicates else kvps.duplicates }

/-- Pairs up to `extsEnd`.  Every pair takes at least one byte, so the distance to
`extsEnd` is fuel enough. -/
def pullKvps (mode : KvpMode) (extsEnd : Nat) :
    Nat → Nat → KeyValuePairs → Reader MoqtError KeyValuePairs
  | 0, _, kvps => pure kvps
  | fuel + 1, prev, kvps => fun cur =>
      if extsEnd ≤ cur.pos then .ok (kvps, cur)
      else match pullKvp code mode extsEnd prev cur with
        | .error (.underflow pos) =>
            let start := cur.pos
            let parsed := kvps.dict.size
            if mode.withLength ∨ ¬ mode.lenient then .error (.underflow pos)
            -- a control message whose Length covers a cut pair
            else if ¬ mode.tolerate then .error (.malformedKvp
              (s!"non-compliant peer: truncated trailing extensions block (kvp_start={start} " ++
                s!"tell={pos} exts_end={extsEnd} parsed_kvps={parsed})"))
            else .ok (kvps, ⟨extsEnd, cur.rest.drop (extsEnd - cur.pos)⟩)
        | .error e => .error e
        | .ok ((extId, value), next) =>
            let start := cur.pos
            let stop := next.pos
            let type := hex extId
            if extsEnd < next.pos then .error (.malformedKvp
              (s!"extensions decode overrun: pos={stop} exts_end={extsEnd} " ++
                s!"kvp_start={start} ext_id=0x{type}"))
            else pullKvps mode extsEnd fuel extId (kvps.put extId value) next

/-- `exts if exts else None`. -/
def KeyValuePairs.orNone (kvps : KeyValuePairs) : Option KeyValuePairs :=
  if kvps.dict.entries = [] then none else some kvps

/-- A block behind its length. -/
def extensionsDecode (delta : Bool) : Reader MoqtError (Option KeyValuePairs) := do
  let pos ← Reader.tell
  let extsLen ← pullVint code
  let limit := extensionsLenLimit
  if extensionsLenLimit < extsLen then
    Reader.fail (.malformedKvp
      s!"framer desync: ext_len={extsLen} exceeds limit {limit} at pos={pos}")
  else if extsLen = 0 then return none
  else do
    let start ← Reader.tell
    let kvps ← pullKvps code { delta } (start + extsLen) extsLen 0 ⟨.empty, []⟩
    return kvps.orNone

/-- A block that runs to the end of its message. -/
def extensionsDecodeTo (bufEnd : Nat) (delta lenient tolerate : Bool) :
    Reader MoqtError (Option KeyValuePairs) := do
  let pos ← Reader.tell
  if pos = bufEnd then return none
  else do
    let kvps ← pullKvps code { withLength := false, delta, lenient, tolerate } bufEnd
      (bufEnd - pos) 0 ⟨.empty, []⟩
    return kvps.orNone

end Kvp

end AioMoqt.Messages
