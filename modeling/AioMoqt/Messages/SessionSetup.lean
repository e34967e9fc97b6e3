import AioMoqt.Messages.Params

/-!
# SETUP and GOAWAY

`messages/session_setup.py`, with the SETUP of draft 18 (`messages/d18`) and of
drafts 20 and 22 (`messages/d20`).  A message is written as its type, a 16-bit
length and its body; the bodies are what the decoders see.
-/

namespace AioMoqt.Messages

open AioMoqt.Lib AioMoqt.Lib.BigEndian

/-! ## Frames and texts -/

/-- `push_uint16`. -/
def pushUint16 (v : Nat) : Except MoqtError Bytes :=
  if v < 2 ^ 16 then .ok [UInt8.ofNat (v / 256), UInt8.ofNat (v % 256)] else .error .range

/-- A message: its type, the length of its body, and the body. -/
def frame (code : PrefixCode) (type : Nat) (body : Bytes) : Except MoqtError Bytes := do
  let head ← pushVint code type
  let len ← pushUint16 body.length
  return head ++ len ++ body

/-- `str.encode()`. -/
def encodeUtf8 (text : String) : Bytes := text.toByteArray.data.toList

/-- `bytes.decode()`. -/
def decodeUtf8 (bs : Bytes) : Option String :=
  let raw : ByteArray := ⟨bs.toArray⟩
  if h : raw.IsValidUTF8 then some ⟨raw, h⟩ else none

/-- The continuation bytes a lead byte announces: each with the range it may be in. -/
def utf8Trail (lead : Nat) : Option (List (Nat × Nat)) :=
  let cont := (0x80, 0xBF)
  if lead < 0x80 then some []
  else if 0xC2 ≤ lead ∧ lead ≤ 0xDF then some [cont]
  else if lead = 0xE0 then some [(0xA0, 0xBF), cont]
  else if lead = 0xED then some [(0x80, 0x9F), cont]
  else if 0xE1 ≤ lead ∧ lead ≤ 0xEF then some [cont, cont]
  else if lead = 0xF0 then some [(0x90, 0xBF), cont, cont]
  else if 0xF1 ≤ lead ∧ lead ≤ 0xF3 then some [cont, cont, cont]
  else if lead = 0xF4 then some [(0x80, 0x8F), cont, cont]
  else none

/-- How many of the expected continuation bytes are there. -/
def utf8Matched : List (Nat × Nat) → Bytes → Nat
  | (lo, hi) :: trail, b :: bs =>
      if lo ≤ b.toNat ∧ b.toNat ≤ hi then utf8Matched trail bs + 1 else 0
  | _, _ => 0

/-- The code point of a complete sequence. -/
def utf8Point (lead : Nat) (trail : Bytes) : Nat :=
  let bits := if lead < 0x80 then lead else if lead < 0xE0 then lead % 32
    else if lead < 0xF0 then lead % 16 else lead % 8
  trail.foldl (fun acc b => acc * 64 + b.toNat % 64) bits

/-- `decode(errors='replace')` byte by byte: each ill-formed part becomes one U+FFFD. -/
def utf8Replace : Nat → Bytes → List Char
  | 0, _ => []
  | _, [] => []
  | fuel + 1, lead :: rest =>
      match utf8Trail lead.toNat with
      | none => Char.ofNat 0xFFFD :: utf8Replace fuel rest
      | some trail =>
          let n := utf8Matched trail rest
          if n = trail.length then
            Char.ofNat (utf8Point lead.toNat (rest.take n)) :: utf8Replace fuel (rest.drop n)
          else Char.ofNat 0xFFFD :: utf8Replace fuel (rest.drop n)

/-- `bytes.decode(errors='replace')`. -/
def decodeUtf8Replace (bs : Bytes) : String :=
  match decodeUtf8 bs with
  | some text => text
  | none => String.ofList (utf8Replace bs.length bs)

def reasonPhraseMax : Nat := 1024

/-- `_pull_reason`. -/
def pullReason (prof : DraftProfile) : Reader MoqtError String := do
  let n ← pullVint prof.vint
  let limit := reasonPhraseMax
  if reasonPhraseMax < n then
    Reader.fail (.violation s!"reason phrase {n} bytes (max {limit})")
  else do
    let raw ← pullBytes n
    return decodeUtf8Replace raw

def pushReason (prof : DraftProfile) (reason : String) : Except MoqtError Bytes :=
  pushSized prof (encodeUtf8 reason)

/-! ## CLIENT_SETUP and SERVER_SETUP -/

structure ServerSetup where
  selectedVersion : Option Nat := none
  parameters : Params

namespace ServerSetup

/-- The version is on the wire in draft 14 only. -/
def body (self : ServerSetup) (prof : DraftProfile) : Except MoqtError Bytes := do
  let version ← (if prof.setupCarriesVersions then
      match self.selectedVersion with
      | some version => pushVint Buffer.rfc9000 version
      | none => .error .typeError
    else .ok [])
  let params ← serializeParams prof self.parameters
  return version ++ params

def deserialize (prof : DraftProfile) (bufEnd : Nat) : Reader MoqtError ServerSetup := do
  let version ← (if prof.setupCarriesVersions then do
      let version ← pullVint Buffer.rfc9000
      pure (some version)
    else pure none)
  let params ← deserializeParams prof bufEnd none
  return { selectedVersion := version, parameters := params }

end ServerSetup

structure ClientSetup where
  versions : List Nat := []
  parameters : Params

namespace ClientSetup

def pushVersions : List Nat → Except MoqtError Bytes
  | [] => .ok []
  | version :: versions => do
      let head ← pushVint Buffer.rfc9000 version
      let tail ← pushVersions versions
      return head ++ tail

def body (self : ClientSetup) (prof : DraftProfile) : Except MoqtError Bytes := do
  let versions ← (if prof.setupCarriesVersions then do
      let count ← pushVint Buffer.rfc9000 self.versions.length
      let versions ← pushVersions self.versions
      pure (count ++ versions)
    else .ok [])
  let params ← serializeParams prof self.parameters
  return versions ++ params

def pullVersions : Nat → Reader MoqtError (List Nat)
  | 0 => pure []
  | n + 1 => do
      let version ← pullVint Buffer.rfc9000
      let versions ← pullVersions n
      return version :: versions

def deserialize (prof : DraftProfile) (bufEnd : Nat) : Reader MoqtError ClientSetup := do
  let versions ← (if prof.setupCarriesVersions then do
      let count ← pullVint Buffer.rfc9000
      pullVersions count
    else pure [])
  let params ← deserializeParams prof bufEnd none
  return { versions, parameters := params }

end ClientSetup

/-! ## SETUP -/

/-- Draft 18: Setup Options without a count. -/
structure Setup where
  options : Dict Nat PlainValue

namespace Setup

/-- `_serialize_kvp_to_end`. -/
def pushOptions (prof : DraftProfile) : Nat → List (Nat × PlainValue) → Except MoqtError Bytes
  | _, [] => .ok []
  | prevKey, (key, value) :: rest => do
      let type ← pushVint prof.vint ((key : Int) - prevKey)
      let body ← (if key % 2 = 1 then pushBytesValue prof key value
        else match value with
          | .int v => pushVint prof.vint v
          | _ => .error .typeError)
      let tail ← pushOptions prof key rest
      return type ++ body ++ tail

def body (self : Setup) (prof : DraftProfile) : Except MoqtError Bytes :=
  pushOptions prof 0 self.options.sorted

/-- The value of an option inside `bufEnd`. -/
def pullOptionValue (prof : DraftProfile) (bufEnd key : Nat) : Reader MoqtError PlainValue :=
  if key % 2 = 1 then do
    let len ← pullVint prof.vint
    let pos ← Reader.tell
    let remaining := bufEnd - pos
    if 65535 < len then
      Reader.fail (.violation "KVP value length exceeds maximum of 65535 bytes")
    else if bufEnd < pos + len then
      Reader.fail (.violation s!"KVP value length {len} exceeds remaining {remaining}")
    else do
      let raw ← pullBytes len
      if key = ParamType.authToken then Reader.ofExcept (authTokenUnwrap prof.vint raw)
      else return .bytes raw
  else do
    let v ← pullVint prof.vint
    let pos ← Reader.tell
    if bufEnd < pos then Reader.fail (.violation s!"KVP overran frame extent: {pos}/{bufEnd}")
    else return .int v

/-- `_deserialize_kvp_to_end`. -/
def pullOptions (prof : DraftProfile) (bufEnd : Nat) :
    Nat → Nat → Dict Nat PlainValue → Reader MoqtError (Dict Nat PlainValue)
  | 0, _, options => pure options
  | fuel + 1, prevKey, options => do
      let pos ← Reader.tell
      if pos < bufEnd then do
        let raw ← pullVint prof.vint
        let key := prevKey + raw
        if kvpTypeMax < key then
          Reader.fail (.violation s!"KVP Delta Type overflows the Type space: {key} > 2^64-1")
        else do
          let value ← pullOptionValue prof bufEnd key
          pullOptions prof bufEnd fuel key (options.insert key value)
      else return options

def deserialize (prof : DraftProfile) (bufEnd : Nat) : Reader MoqtError Setup := do
  let pos ← Reader.tell
  let options ← pullOptions prof bufEnd (bufEnd - pos) 0 .empty
  return { options }

end Setup

/-- Drafts 20 and 22: unknown options are skipped and named in `ignored`. -/
structure D20Setup where
  options : Dict Nat PlainValue
  ignored : List Nat := []

namespace D20Setup

/-- `SETUP_OPTIONS`. -/
def setupOptions : List (Nat × String) :=
  [(0x01, "PATH"), (0x03, "AUTHORIZATION_TOKEN"), (0x04, "MAX_AUTH_TOKEN_CACHE_SIZE"),
    (0x05, "AUTHORITY"), (0x06, "MAX_FILTER_RANGES"), (0x07, "MOQT_IMPLEMENTATION"),
    (0x08, "MAX_REQUEST_UPDATES")]

def repeatableOptions : List Nat := [0x03]

def optionValueMax : Nat := 0xFFFF

/-- An odd option's bytes. -/
def pushOptionBytes (prof : DraftProfile) (key : Nat) (value : PlainValue) :
    Except MoqtError Bytes := do
  let raw ← (if key = ParamType.authToken then authTokenWrap prof.vint value
    else match value with
      | .bytes raw => .ok raw
      | _ => .error .typeError)
  let type := hex key
  let len := raw.length
  let limit := optionValueMax
  if optionValueMax < raw.length then
    .error (.valueError s!"Setup Option 0x{type} is {len} bytes (max {limit})")
  else pushSized prof raw

def pushOptions (prof : DraftProfile) : Nat → List (Nat × PlainValue) → Except MoqtError Bytes
  | _, [] => .ok []
  | prevKey, (key, value) :: rest =>
      if u64Max < key then .error (.valueError s!"Setup Option type {key} out of range")
      else do
        let type ← pushVint prof.vint ((key : Int) - prevKey)
        let body ← (if key % 2 = 1 then pushOptionBytes prof key value
          else match value with
            | .int v => pushVint prof.vint v
            | _ => .error .typeError)
        let tail ← pushOptions prof key rest
        return type ++ body ++ tail

def body (self : D20Setup) (prof : DraftProfile) : Except MoqtError Bytes :=
  pushOptions prof 0 self.options.sorted

/-- `check_extent`. -/
def checkExtent (bufEnd : Nat) (what : String) : Reader MoqtError Unit := do
  let pos ← Reader.tell
  let past := pos - bufEnd
  if bufEnd < pos then
    Reader.fail (.violation s!"SETUP {what} runs {past} bytes past its Length")
  else return ()

def pullOptionValue (prof : DraftProfile) (bufEnd key : Nat) : Reader MoqtError PlainValue :=
  let type := hex key
  if key % 2 = 1 then do
    let len ← pullVint prof.vint
    checkExtent bufEnd s!"option 0x{type} length"
    let pos ← Reader.tell
    let limit := optionValueMax
    if optionValueMax < len then
      Reader.fail (.violation s!"Setup Option 0x{type} Length {len} exceeds {limit}")
    else if bufEnd < pos + len then
      Reader.fail (.violation s!"Setup Option 0x{type} Length {len} runs past the SETUP Length")
    else do
      let raw ← pullBytes len
      return .bytes raw
  else do
    let v ← pullVint prof.vint
    checkExtent bufEnd s!"option 0x{type} value"
    return .int v

/-- What an option leaves in the message: a repeated token keeps its first instance. -/
def storeOption (prof : DraftProfile) (self : D20Setup) (key : Nat) (value : PlainValue) :
    Except MoqtError D20Setup :=
  match setupOptions.lookup key with
  | none => .ok { self with ignored := self.ignored ++ [key] }
  | some name =>
      if key ∈ self.options.keys then
        if key ∈ repeatableOptions then .ok self
        else .error (.violation s!"Setup Option {name} repeated")
      else match key, value with
        | 0x03, .bytes raw => do
            let token ← authTokenUnwrap prof.vint raw
            return { self with options := self.options.insert key token }
        | _, value => .ok { self with options := self.options.insert key value }

def pullOptions (prof : DraftProfile) (bufEnd : Nat) :
    Nat → Nat → D20Setup → Reader MoqtError D20Setup
  | 0, _, self => pure self
  | fuel + 1, prevKey, self => do
      let pos ← Reader.tell
      if pos < bufEnd then do
        let raw ← pullVint prof.vint
        let key := prevKey + raw
        checkExtent bufEnd "option type"
        if u64Max < key then
          Reader.fail (.violation s!"Setup Option type overflows 2^64-1: {key}")
        else do
          let value ← pullOptionValue prof bufEnd key
          let self ← Reader.ofExcept (storeOption prof self key value)
          pullOptions prof bufEnd fuel key self
      else return self

def deserialize (prof : DraftProfile) (bufEnd : Nat) : Reader MoqtError D20Setup :=
  truncatedAs "SETUP truncated: Setup Options end before its Length" do
    let pos ← Reader.tell
    pullOptions prof bufEnd (bufEnd - pos) 0 { options := .empty }

end D20Setup

/-! ## GOAWAY -/

structure GoAway where
  newSessionUri : String
  timeout : Nat := 0
  requestId : Option Nat := none

namespace GoAway

def maxUriLength : Nat := 8192

def body (self : GoAway) (prof : DraftProfile) : Except MoqtError Bytes :=
  let uri := encodeUtf8 self.newSessionUri
  if maxUriLength < uri.length then
    .error (.valueError "New Session URI exceeds maximum length (8 KiB)")
  else do
    let head ← pushSized prof uri
    let timeout ← (if prof.draft18 then pushVint prof.vint self.timeout else .ok [])
    let requestId ← (match self.requestId with
      | some rid => if prof.draft18 ∧ prof.goawayRequestId then pushVint prof.vint rid else .ok []
      | none => .ok [])
    return head ++ timeout ++ requestId

/-- The Request ID, if the Length covers one. -/
def pullRequestId (prof : DraftProfile) (bufEnd : Nat) : Reader MoqtError (Option Nat) := do
  let pos ← Reader.tell
  if prof.goawayRequestId ∧ pos < bufEnd then do
    let rid ← pullVint prof.vint
    return some rid
  else return none

def deserialize (prof : DraftProfile) (bufEnd : Nat) : Reader MoqtError GoAway := do
  let len ← pullVint prof.vint
  let pos ← Reader.tell
  if maxUriLength < len then Reader.fail (.underflow pos)
  else do
    let raw ← pullBytes len
    match decodeUtf8 raw with
    | none => Reader.fail (.violation "New Session URI is not UTF-8")
    | some uri =>
        if prof.draft18 then do
          let timeout ← pullVint prof.vint
          let requestId ← pullRequestId prof bufEnd
          return { newSessionUri := uri, timeout, requestId }
        else return { newSessionUri := uri }

end GoAway

end AioMoqt.Messages
