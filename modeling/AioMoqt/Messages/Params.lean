import AioMoqt.Messages.Base

/-!
# Message Parameters

The parameter tables and value codecs of `messages/params.py`, the token codec and
the parameter blocks of `messages/base.py`.  Up to draft 16 the parity of a type
selects the form of its value; from draft 18 on each parameter has an encoding of
its own, and from draft 20 on some may be repeated.
-/

namespace AioMoqt.Messages

open AioMoqt.Lib AioMoqt.Lib.BigEndian

def u64Max : Nat := 2 ^ 64 - 1

/-! ## Parameter types -/

namespace ParamType

def deliveryTimeout : Nat := 0x02
def authToken : Nat := 0x03
def expires : Nat := 0x08
def largestObject : Nat := 0x09
def forward : Nat := 0x10
def subscriberPriority : Nat := 0x20
def subscriptionFilter : Nat := 0x21
def groupOrder : Nat := 0x22
def fillParameters : Nat := 0x23

/-- `LOCATION_FILTER` has the type of `SUBSCRIPTION_FILTER`. -/
def locationFilter : Nat := 0x21

end ParamType

/-- How the value of a parameter is encoded from draft 18 on. -/
inductive ParamKind where
  | varint | uint8 | bytes | location | locationFilter | rangeFilter | fill
  /-- A Track Namespace behind its length. -/
  | tuple
  /-- A bare Track Namespace. -/
  | bareTuple
deriving Repr, DecidableEq

/-- `D18_PARAM_KINDS`. -/
def d18ParamKinds : List (Nat × ParamKind) :=
  [(0x02, .varint), (0x03, .bytes), (0x04, .varint), (0x06, .varint), (0x08, .varint),
    (0x09, .location), (0x0A, .varint), (0x10, .uint8), (0x20, .uint8), (0x21, .bytes),
    (0x22, .uint8), (0x32, .varint), (0x34, .tuple)]

/-- `_D20_KINDS`. -/
def d20ParamKinds : List (Nat × ParamKind) :=
  [(0x02, .varint), (0x03, .bytes), (0x04, .varint), (0x06, .varint), (0x08, .varint),
    (0x09, .location), (0x0A, .varint), (0x10, .uint8), (0x20, .uint8),
    (0x21, .locationFilter), (0x22, .uint8), (0x23, .fill), (0x25, .rangeFilter),
    (0x26, .rangeFilter), (0x27, .rangeFilter), (0x28, .rangeFilter), (0x29, .rangeFilter),
    (0x32, .varint), (0x34, .tuple), (0x35, .uint8)]

/-- `param_kinds`; draft 22 writes TRACK_NAMESPACE_PREFIX without a length. -/
def paramKind (prof : DraftProfile) (ptype : Nat) : Option ParamKind :=
  if prof.paramTable = 22 ∧ ptype = 0x34 then some .bareTuple
  else (if prof.paramTable = 18 then d18ParamKinds else d20ParamKinds).lookup ptype

def rangeFilters : List Nat := [0x25, 0x26, 0x27, 0x28, 0x29]
def propertyFilters : List Nat := [0x28, 0x29]

/-- Parameters a message may carry more than once. -/
def repeatable : List Nat := 0x03 :: rangeFilters

/-! ## Scopes -/

/-- The control messages, by class. -/
inductive MessageClass where
  | clientSetup | serverSetup | setup | d20Setup | goAway | maxSubscribeId | subscribesBlocked
  | subscribe | subscribeOk | subscribeError | subscribeUpdate | unsubscribe | subscribeDone
  | publish | publishOk | publishError | publishStateNotify
  | fetch | fetchOk | fetchError | fetchCancel
  | trackStatus | trackStatusOk | trackStatusError
  | publishNamespace | publishNamespaceOk | publishNamespaceError | publishNamespaceDone
  | publishNamespaceCancel | subscribeNamespace | subscribeNamespaceOk | subscribeNamespaceError
  | unsubscribeNamespace | subscribeTracks | publishBlocked
  | requestOk | requestError | requestUpdate | messageNamespace | namespaceDone
deriving Repr, DecidableEq

/-- `cls.__name__`. -/
def MessageClass.name : MessageClass → String
  | .clientSetup => "ClientSetup"
  | .serverSetup => "ServerSetup"
  | .setup => "Setup"
  | .d20Setup => "Setup"
  | .goAway => "GoAway"
  | .maxSubscribeId => "MaxSubscribeId"
  | .subscribesBlocked => "SubscribesBlocked"
  | .subscribe => "Subscribe"
  | .subscribeOk => "SubscribeOk"
  | .subscribeError => "SubscribeError"
  | .subscribeUpdate => "SubscribeUpdate"
  | .unsubscribe => "Unsubscribe"
  | .subscribeDone => "SubscribeDone"
  | .publish => "Publish"
  | .publishOk => "PublishOk"
  | .publishError => "PublishError"
  | .publishStateNotify => "PublishStateNotify"
  | .fetch => "Fetch"
  | .fetchOk => "FetchOk"
  | .fetchError => "FetchError"
  | .fetchCancel => "FetchCancel"
  | .trackStatus => "TrackStatus"
  | .trackStatusOk => "TrackStatusOk"
  | .trackStatusError => "TrackStatusError"
  | .publishNamespace => "PublishNamespace"
  | .publishNamespaceOk => "PublishNamespaceOk"
  | .publishNamespaceError => "PublishNamespaceError"
  | .publishNamespaceDone => "PublishNamespaceDone"
  | .publishNamespaceCancel => "PublishNamespaceCancel"
  | .subscribeNamespace => "SubscribeNamespace"
  | .subscribeNamespaceOk => "SubscribeNamespaceOk"
  | .subscribeNamespaceError => "SubscribeNamespaceError"
  | .unsubscribeNamespace => "UnsubscribeNamespace"
  | .subscribeTracks => "SubscribeTracks"
  | .publishBlocked => "PublishBlocked"
  | .requestOk => "RequestOk"
  | .requestError => "RequestError"
  | .requestUpdate => "RequestUpdate"
  | .messageNamespace => "Namespace"
  | .namespaceDone => "NamespaceDone"

/-- What a parameter block belongs to: a message, or the value of FILL_PARAMETERS. -/
inductive ParamScope where
  | message (cls : MessageClass)
  | fillParameters
deriving Repr, DecidableEq

def ParamScope.name : ParamScope → String
  | .message cls => cls.name
  | .fillParameters => "FillParameters"

/-- `D18_PARAM_SCOPE`: replies are not checked. -/
def d18ParamScope : ParamScope → Option (List Nat)
  | .message .subscribe => some [0x02, 0x03, 0x04, 0x06, 0x10, 0x20, 0x21, 0x22, 0x32]
  | .message .publish => some [0x03, 0x08, 0x09, 0x10]
  | .message .fetch => some [0x03, 0x0A, 0x20, 0x22]
  | .message .trackStatus => some [0x03]
  | .message .publishNamespace => some [0x03]
  | .message .subscribeNamespace => some [0x03]
  | .message .subscribeTracks => some [0x03, 0x10]
  | .message .requestUpdate => some [0x02, 0x03, 0x06, 0x10, 0x20, 0x21, 0x32, 0x34]
  | _ => none

/-- `_D20_SCOPE`. -/
def d20ParamScope : ParamScope → Option (List Nat)
  | .message .subscribe =>
      some [0x02, 0x03, 0x04, 0x06, 0x10, 0x20, 0x21, 0x22, 0x23, 0x25, 0x26, 0x27, 0x28, 0x32,
        0x35]
  | .message .subscribeOk => some [0x08, 0x09]
  | .message .publish => some [0x02, 0x03, 0x06, 0x08, 0x09, 0x10, 0x20, 0x21, 0x22]
  | .message .publishOk => some [0x08]
  | .message .publishStateNotify => some [0x09, 0x10, 0x21]
  | .message .fetch => some [0x03, 0x0A, 0x20, 0x21, 0x22, 0x25, 0x26, 0x27, 0x28, 0x35]
  | .message .fetchOk => some []
  | .message .trackStatus => some [0x03, 0x35]
  | .message .publishNamespace => some [0x03]
  | .message .subscribeNamespace => some [0x03]
  | .message .subscribeTracks =>
      some [0x02, 0x03, 0x04, 0x06, 0x10, 0x20, 0x21, 0x22, 0x23, 0x25, 0x26, 0x27, 0x28, 0x32,
        0x35, 0x29]
  | .message .requestUpdate =>
      some [0x02, 0x03, 0x06, 0x10, 0x20, 0x21, 0x23, 0x25, 0x26, 0x27, 0x28, 0x32, 0x34, 0x29]
  | .message .requestOk => some [0x08, 0x09]
  | .fillParameters => some [0x0A, 0x20, 0x21, 0x22, 0x25, 0x26, 0x27, 0x28]
  | _ => none

/-- `param_scope(prof).get(scope)`, consulted from draft 18 on. -/
def paramScope (prof : DraftProfile) (scope : Option ParamScope) : Option (List Nat) :=
  match scope with
  | none => none
  | some scope =>
      if ¬ prof.draft18 then none
      else if prof.paramTable = 18 then d18ParamScope scope else d20ParamScope scope

/-! ## Values -/

inductive AuthTokenAliasType where
  | delete | register | useAlias | useValue
deriving Repr, DecidableEq

def AuthTokenAliasType.code : AuthTokenAliasType → Nat
  | .delete => 0
  | .register => 1
  | .useAlias => 2
  | .useValue => 3

/-- A token's value with its type. -/
structure AuthToken where
  value : Bytes
  tokenType : Nat := 0
deriving Repr, DecidableEq

/-- A token that operates on the receiver's cache. -/
structure AuthTokenRef where
  aliasType : AuthTokenAliasType
  tokenAlias : Nat
  tokenType : Option Nat := none
  value : Option Bytes := none
deriving Repr, DecidableEq

/-- A Location Filter: each form with the fields it has.  `endGroup` is absolute and
`endObject` inclusive; the group of `relativeStart` counts back from the next one. -/
inductive LocationFilter where
  | none
  | relativeStart (groups : Nat)
  | absoluteStart (startGroup startObject : Nat)
  | absoluteGroupEnd (startGroup startObject endGroup : Nat)
  | absoluteRange (startGroup startObject endGroup endObject : Nat)
  | nextObject
deriving Repr, DecidableEq

/-- One Range Filter: inclusive ranges, of which the last may be open.  Without
`setId` it is the zero-length form that removes the filter. -/
structure RangeFilter where
  setId : Option Nat := some 0
  ranges : List (Nat × Option Nat) := []
  propertyType : Option Nat := none
deriving Repr, DecidableEq

/-- The value of a parameter that is not itself a parameter block. -/
inductive PlainValue where
  | int (v : Nat)
  | bytes (v : Bytes)
  | token (t : AuthToken)
  | tokenRef (r : AuthTokenRef)
  | location (group object : Nat)
  | locationFilter (f : LocationFilter)
  | rangeFilter (f : RangeFilter)
  | tuple (parts : List Bytes)
deriving Repr, DecidableEq

/-- What a dictionary holds for a type: one value, or a list of them. -/
inductive Slot (α : Type) where
  | one (v : α)
  | many (vs : List α)
deriving Repr, DecidableEq

def Slot.values {α : Type} : Slot α → List α
  | .one v => [v]
  | .many vs => vs

/-- The value of a parameter: FILL_PARAMETERS holds a block of its own. -/
inductive ParamValue where
  | plain (v : PlainValue)
  | fill (params : Dict Nat (Slot PlainValue))

/-- The parameters of a message. -/
abbrev Params : Type := Dict Nat (Slot ParamValue)

def PlainValue.scalar : PlainValue → Option Nat
  | .int v => some v
  | _ => none

def ParamValue.scalar : ParamValue → Option Nat
  | .plain v => v.scalar
  | .fill _ => none

/-! ## Tokens -/

section Token

variable (code : PrefixCode)

/-- `_auth_token_unwrap`: the Token structure inside its length. -/
def pullAuthToken (len : Nat) : Reader MoqtError PlainValue := do
  let aliasType ← pullVint code
  if aliasType = AuthTokenAliasType.useValue.code then do
    let tokenType ← pullVint code
    let pos ← Reader.tell
    let value ← pullBytes (len - pos)
    return .token ⟨value, tokenType⟩
  else if aliasType = AuthTokenAliasType.register.code then do
    let tokenAlias ← pullVint code
    let tokenType ← pullVint code
    let pos ← Reader.tell
    let value ← pullBytes (len - pos)
    return .tokenRef ⟨.register, tokenAlias, some tokenType, some value⟩
  else if aliasType = AuthTokenAliasType.delete.code ∨
      aliasType = AuthTokenAliasType.useAlias.code then do
    let tokenAlias ← pullVint code
    let pos ← Reader.tell
    if pos = len then
      return .tokenRef
        ⟨if aliasType = AuthTokenAliasType.delete.code then .delete else .useAlias, tokenAlias,
          none, none⟩
    else Reader.fail (.underflow pos)
  else do
    let pos ← Reader.tell
    Reader.fail (.underflow pos)

/-- `_auth_token_unwrap` of a value already taken off the wire. -/
def authTokenUnwrap (raw : Bytes) : Except MoqtError PlainValue :=
  match pullAuthToken code raw.length ⟨0, raw⟩ with
  | .ok (token, _) => .ok token
  | .error _ => .error (.exception .keyValueFormattingError "undecodable authorization token")

/-- `_auth_token_wrap`. -/
def authTokenWrap : PlainValue → Except MoqtError Bytes
  | .tokenRef ref => do
      let aliasType ← pushVint code ref.aliasType.code
      let tokenAlias ← pushVint code ref.tokenAlias
      if ref.aliasType = .register then do
        let tokenType ← pushVint code ((ref.tokenType.getD 0 : Nat) : Int)
        return aliasType ++ tokenAlias ++ tokenType ++ ref.value.getD []
      else return aliasType ++ tokenAlias
  | .token token => do
      let aliasType ← pushVint code AuthTokenAliasType.useValue.code
      let tokenType ← pushVint code token.tokenType
      return aliasType ++ tokenType ++ token.value
  | .bytes value => do
      let aliasType ← pushVint code AuthTokenAliasType.useValue.code
      let tokenType ← pushVint code 0
      return aliasType ++ tokenType ++ value
  | _ => .error .typeError

end Token

/-! ## Track Namespaces -/

def namespaceMaxFields : Nat := 32
def fullTrackNameMax : Nat := 4096

section Namespace

variable (prof : DraftProfile)

/-- `_pull_sized`: a length past the buffer is refused before the read. -/
def pullSized (n : Nat) (what : String) : Reader MoqtError Bytes := fun cur =>
  if cur.rest.length < n then .error (.violation s!"{what} length {n} overruns the message")
  else pullBytes n cur

/-- The fields of a namespace; with `bufEnd` none may run past it. -/
def pullTupleFields (bufEnd : Option Nat) : Nat → Reader MoqtError (List Bytes)
  | 0 => pure []
  | n + 1 => do
      let flen ← pullVint prof.vint
      let pos ← Reader.tell
      if bufEnd.any (· < pos + flen) then
        Reader.fail (.violation "namespace field overruns frame")
      else do
        let part ← pullSized flen "namespace field"
        let parts ← pullTupleFields bufEnd n
        return part :: parts

def tupleSize (parts : List Bytes) : Nat := (parts.map List.length).sum

/-- `_pull_tuple`. -/
def pullTuple (bufEnd : Option Nat) : Reader MoqtError (List Bytes) := do
  let n ← pullVint prof.vint
  let limit := namespaceMaxFields
  if namespaceMaxFields < n then
    Reader.fail (.violation s!"namespace has {n} fields (max {limit})")
  else do
    let parts ← pullTupleFields prof bufEnd n
    let size := tupleSize parts
    let sizeMax := fullTrackNameMax
    if prof.draft16 ∧ [] ∈ parts then Reader.fail (.violation "empty namespace field")
    else if prof.draft16 ∧ fullTrackNameMax < size then
      Reader.fail (.violation s!"namespace is {size} bytes (max {sizeMax})")
    else return parts

/-- `_pull_full_track_name`. -/
def pullFullTrackName : Reader MoqtError (List Bytes × Bytes) := do
  let parts ← pullTuple prof none
  let len ← pullVint prof.vint
  let name ← pullSized len "track name"
  let size := tupleSize parts + name.length
  let sizeMax := fullTrackNameMax
  if fullTrackNameMax < size then
    Reader.fail (.violation s!"full track name is {size} bytes (max {sizeMax})")
  else return (parts, name)

/-- Each field behind its length. -/
def pushFields : List Bytes → Except MoqtError Bytes
  | [] => .ok []
  | part :: parts => do
      let len ← pushVint prof.vint part.length
      let rest ← pushFields parts
      return len ++ part ++ rest

/-- The number of fields, then the fields. -/
def pushTuple (parts : List Bytes) : Except MoqtError Bytes := do
  let n ← pushVint prof.vint parts.length
  let fields ← pushFields prof parts
  return n ++ fields

/-- A byte string behind its length. -/
def pushSized (bs : Bytes) : Except MoqtError Bytes := do
  let len ← pushVint prof.vint bs.length
  return len ++ bs

def pushFullTrackName (parts : List Bytes) (name : Bytes) : Except MoqtError Bytes := do
  let head ← pushTuple prof parts
  let tail ← pushSized prof name
  return head ++ tail

end Namespace

/-! ## Location and Range Filters -/

section Filters

variable (prof : DraftProfile)

/-- A short read inside a filter value. -/
def truncatedAs {α : Type} (reason : String) (r : Reader MoqtError α) : Reader MoqtError α :=
  fun cur => match r cur with
    | .error (.underflow _) => .error (.violation reason)
    | result => result

/-- `n` integers. -/
def pullVints : Nat → Reader MoqtError (List Nat)
  | 0 => pure []
  | n + 1 => do
      let v ← pullVint prof.vint
      let vs ← pullVints n
      return v :: vs

/-- Integers up to `stop`, at most `n` more. -/
def pullVintsTo (stop : Nat) : Nat → Reader MoqtError (List Nat)
  | 0 => do
      let pos ← Reader.tell
      if pos < stop then Reader.fail (.violation "LOCATION_FILTER has more than four fields")
      else return []
  | n + 1 => do
      let pos ← Reader.tell
      if pos < stop then do
        let v ← pullVint prof.vint
        let vs ← pullVintsTo stop n
        return v :: vs
      else return []

namespace LocationFilter

/-- The Location Filter Types of draft 22, which earlier drafts tell apart by the
number of fields. -/
def fieldCount : Nat → Option Nat
  | 0 => some 0
  | 1 => some 1
  | 2 => some 2
  | 3 => some 3
  | 4 => some 4
  | 5 => some 0
  | _ => Option.none

/-- The filter of a type and its fields as they stand on the wire; the end group is
a delta from the start. -/
def ofFields (type : Nat) : List Nat → Except MoqtError LocationFilter
  | [] => .ok (if type = 5 then nextObject else none)
  | [groups] => .ok (relativeStart groups)
  | [group, object] => .ok (absoluteStart group object)
  | group :: object :: delta :: rest =>
      let endGroup := delta + group
      if u64Max < endGroup then
        .error (.violation s!"LOCATION_FILTER end group {endGroup} exceeds 2^64-1")
      else match rest with
        | [] => .ok (absoluteGroupEnd group object endGroup)
        | endObject :: _ => .ok (absoluteRange group object endGroup endObject)

/-- The typed form. -/
def pullTyped (bufEnd : Nat) : Reader MoqtError (Nat × List Nat) := do
  let raw ← pullVint prof.vint
  let type := hex raw
  match fieldCount raw with
  | Option.none => Reader.fail (.violation s!"unknown Location Filter Type 0x{type}")
  | some n => do
      let fields ← pullVints prof n
      let pos ← Reader.tell
      if bufEnd < pos then Reader.fail (.violation "LOCATION_FILTER overruns the message")
      else return (raw, fields)

/-- The form behind a length; two zeros stand for the next object. -/
def pullUntyped (bufEnd : Nat) : Reader MoqtError (Nat × List Nat) := do
  let length ← pullVint prof.vint
  let start ← Reader.tell
  let stop := start + length
  if bufEnd < stop then
    Reader.fail (.violation s!"LOCATION_FILTER length {length} overruns the message")
  else do
    let fields ← pullVintsTo prof stop 4
    let pos ← Reader.tell
    if pos ≠ stop then Reader.fail (.violation "LOCATION_FILTER field crosses its length")
    else return if fields = [0, 0] then (5, []) else (fields.length, fields)

/-- `LocationFilter.decode`. -/
def decode (bufEnd : Nat) : Reader MoqtError LocationFilter := do
  let raw ← truncatedAs "LOCATION_FILTER truncated"
    (if prof.locationFilterTyped then pullTyped prof bufEnd else pullUntyped prof bufEnd)
  match ofFields raw.1 raw.2 with
  | .ok filter => return filter
  | .error e => Reader.fail e

/-- The type and the fields as they go on the wire. -/
def toFields : LocationFilter → Nat × List Int
  | none => (0, [])
  | relativeStart groups => (1, [(groups : Int)])
  | absoluteStart group object => (2, [(group : Int), object])
  | absoluteGroupEnd group object endGroup => (3, [(group : Int), object, endGroup - group])
  | absoluteRange group object endGroup endObject =>
      (4, [(group : Int), object, endGroup - group, endObject])
  | nextObject => (5, [])

def pushVints : List Int → Except MoqtError Bytes
  | [] => .ok []
  | v :: vs => do
      let head ← pushVint prof.vint v
      let tail ← pushVints vs
      return head ++ tail

/-- `LocationFilter.encode`: without types an open filter from the start of the
track is the unfiltered one. -/
def encode (self : LocationFilter) : Except MoqtError Bytes :=
  if prof.locationFilterTyped then do
    let type ← pushVint prof.vint (self.toFields.1 : Nat)
    let fields ← pushVints prof self.toFields.2
    return type ++ fields
  else do
    let inner ← pushVints prof (match self with
      | nextObject => [0, 0]
      | absoluteStart 0 0 => []
      | _ => self.toFields.2)
    pushSized prof inner

end LocationFilter

namespace RangeFilter

/-- Ranges up to `stop`, each start relative to the last end. -/
def pullRanges (stop : Nat) : Nat → Nat → Reader MoqtError (List (Nat × Option Nat))
  | 0, _ => pure []
  | fuel + 1, prev => do
      let pos ← Reader.tell
      if pos < stop then do
        let delta ← pullVint prof.vint
        let start := prev + delta
        let pos ← Reader.tell
        if pos < stop then do
          let len ← pullVint prof.vint
          let rest ← pullRanges stop fuel (start + len)
          return (start, some (start + len)) :: rest
        else do
          let rest ← pullRanges stop fuel prev
          return (start, none) :: rest
      else return []

/-- The property a filter names, which only the property filters carry. -/
def pullPropertyType (ptype : Nat) : Reader MoqtError (Option Nat) :=
  if ptype ∈ propertyFilters then do
    let v ← pullVint prof.vint
    return some v
  else return none

/-- `RangeFilter.decode`. -/
def decode (ptype bufEnd : Nat) : Reader MoqtError RangeFilter :=
  let type := hex ptype
  truncatedAs s!"range filter 0x{type} truncated" do
    let length ← pullVint prof.vint
    let pos ← Reader.tell
    let stop := pos + length
    if bufEnd < stop then
      Reader.fail (.violation s!"range filter 0x{type} length {length} overruns the message")
    else if length = 0 then return { setId := none }
    else do
      let setId ← pullUint8
      let propertyType ← pullPropertyType prof ptype
      let ranges ← pullRanges prof stop length 0
      let pos ← Reader.tell
      if pos ≠ stop then
        Reader.fail (.violation s!"range filter 0x{type} field crosses its length")
      else return { setId := some setId, ranges, propertyType }

/-- The ranges as deltas; only the last may be open. -/
def pushRanges : Nat → List (Nat × Option Nat) → Except MoqtError Bytes
  | _, [] => .ok []
  | prev, (start, stop) :: rest =>
      if start < prev ∨ stop.any (· < start) then
        .error (.valueError s!"range ({start}, {stop}) is not ascending")
      else if stop = none ∧ rest ≠ [] then
        .error (.valueError "only the last Range may be open")
      else do
        let head ← pushVint prof.vint ((start : Int) - prev)
        match stop with
        | none => do
            let tail ← pushRanges prev rest
            return head ++ tail
        | some stop => do
            let len ← pushVint prof.vint ((stop : Int) - start)
            let tail ← pushRanges stop rest
            return head ++ len ++ tail

def pushPropertyType (ptype : Nat) (propertyType : Option Nat) : Except MoqtError Bytes :=
  let type := hex ptype
  if ptype ∈ propertyFilters then
    match propertyType with
    | none => .error (.valueError s!"filter 0x{type} needs a property_type")
    | some v => pushVint prof.vint v
  else
    match propertyType with
    | none => .ok []
    | some _ => .error (.valueError s!"filter 0x{type} carries no property_type")

/-- `RangeFilter.encode`. -/
def encode (self : RangeFilter) (ptype : Nat) : Except MoqtError Bytes :=
  match self.setId with
  | none => pushSized prof []
  | some setId =>
      if 255 < setId then .error (.valueError s!"SetID {setId} outside 0..255")
      else do
        let head ← pushUint8 setId
        let property ← pushPropertyType prof ptype self.propertyType
        let ranges ← pushRanges prof 0 self.ranges
        pushSized prof (head ++ property ++ ranges)

end RangeFilter

end Filters

/-! ## Locations

Draft 18 writes a Location as two bare integers; some peers put a length before
them.  Where both readings are possible the one whose remainder still parses as a
message is taken. -/

section Location

variable (prof : DraftProfile)

def pullLocation : Reader MoqtError (Nat × Nat) := do
  let group ← pullVint prof.vint
  let object ← pullVint prof.vint
  return (group, object)

/-- Bytes behind a length that stays inside `bufEnd`. -/
def skipSized (bufEnd : Nat) : Reader MoqtError Unit := do
  let len ← pullVint prof.vint
  let pos ← Reader.tell
  if bufEnd < pos + len then Reader.fail (.underflow pos)
  else do
    let _ ← pullBytes len
    return ()

/-- A parameter value by the parity rule. -/
def skipParamValue (bufEnd ptype : Nat) : Reader MoqtError Unit :=
  if ptype ∈ prof.locationParams then do
    let _ ← pullLocation prof
    return ()
  else if ptype % 2 = 1 then skipSized prof bufEnd
  else if ptype ∈ prof.uint8Params then do
    let _ ← pullUint8
    return ()
  else do
    let _ ← pullVint prof.vint
    return ()

/-- The parameters still to come. -/
def skipParams (bufEnd : Nat) : Nat → Nat → Reader MoqtError Unit
  | 0, _ => pure ()
  | n + 1, prevKey => do
      let raw ← pullVint prof.vint
      let ptype := if prof.paramsDeltaCoded then prevKey + raw else raw
      skipParamValue prof bufEnd ptype
      let pos ← Reader.tell
      if bufEnd < pos then Reader.fail (.underflow pos) else skipParams bufEnd n ptype

def skipKvpValue (bufEnd key : Nat) : Reader MoqtError Unit :=
  if key % 2 = 1 then skipSized prof bufEnd
  else do
    let _ ← pullVint prof.vint
    return ()

/-- Delta-coded Key-Value-Pairs up to `bufEnd`. -/
def skipKvps (bufEnd : Nat) : Nat → Nat → Reader MoqtError Unit
  | 0, _ => pure ()
  | fuel + 1, prevKey => do
      let pos ← Reader.tell
      if pos < bufEnd then do
        let raw ← pullVint prof.vint
        let key := prevKey + raw
        skipKvpValue prof bufEnd key
        let pos ← Reader.tell
        if bufEnd < pos then Reader.fail (.underflow pos) else skipKvps bufEnd fuel key
      else return ()

/-- `_suffix_parses`. -/
def suffixParses (bufEnd remaining prevKey : Nat) (cur : Cursor) : Bool :=
  match skipParams prof bufEnd remaining prevKey cur with
  | .error _ => false
  | .ok (_, next) =>
      match skipKvps prof bufEnd (bufEnd - next.pos) 0 next with
      | .error _ => false
      | .ok (_, last) => last.pos = bufEnd

/-- The two bare integers, if they end inside the message. -/
def inlineLocation (bufEnd : Nat) (cur : Cursor) : Option ((Nat × Nat) × Cursor) :=
  match pullLocation prof cur with
  | .ok (loc, next) => if next.pos ≤ bufEnd then some (loc, next) else none
  | .error _ => none

/-- The two integers behind a length that they fill. -/
def prefixedLocation (bufEnd : Nat) (cur : Cursor) : Option ((Nat × Nat) × Cursor) :=
  match pullVint prof.vint cur with
  | .error _ => none
  | .ok (len, start) =>
      if len = 0 ∨ bufEnd < start.pos + len then none
      else match pullLocation prof start with
        | .ok (loc, next) => if next.pos = start.pos + len then some (loc, next) else none
        | .error _ => none

/-- `_pull_location_param`. -/
def pullLocationParam (bufEnd remaining prevKey : Nat) : Reader MoqtError (Nat × Nat) := fun cur =>
  match inlineLocation prof bufEnd cur, prefixedLocation prof bufEnd cur with
  | some (loc, next), some (loc', next') =>
      if next.pos ≠ next'.pos ∧ ¬ suffixParses prof bufEnd remaining prevKey next ∧
          suffixParses prof bufEnd remaining prevKey next' then .ok (loc', next')
      else .ok (loc, next)
  | some (loc, next), none => .ok (loc, next)
  | none, some (loc, next) => .ok (loc, next)
  | none, none => .error (.violation "Location parameter unreadable")

end Location

/-! ## Reading a value -/

section Value

variable (prof : DraftProfile)

/-- A value behind its length; a token is decoded. -/
def pullBytesValue (ptype bufEnd : Nat) : Reader MoqtError PlainValue := do
  let len ← pullVint prof.vint
  let pos ← Reader.tell
  let remaining := bufEnd - pos
  if 65535 < len then
    Reader.fail (.violation "parameter length exceeds maximum of 65535 bytes")
  else if bufEnd < pos + len then
    Reader.fail (.violation s!"parameter length {len} exceeds remaining {remaining}")
  else do
    let raw ← pullBytes len
    if ptype = ParamType.authToken then
      match authTokenUnwrap prof.vint raw with
      | .ok token => return token
      | .error e => Reader.fail e
    else return .bytes raw

/-- The value of a parameter of `kind`, `remaining` parameters before the end of
its block. -/
def pullKindValue (kind : ParamKind) (ptype bufEnd remaining : Nat) :
    Reader MoqtError PlainValue :=
  match kind with
  | .location => do
      let loc ← (if prof.draft20 then pullLocation prof
        else pullLocationParam prof bufEnd remaining ptype)
      return .location loc.1 loc.2
  | .locationFilter => do
      let filter ← LocationFilter.decode prof bufEnd
      return .locationFilter filter
  | .rangeFilter => do
      let filter ← RangeFilter.decode prof ptype bufEnd
      return .rangeFilter filter
  | .bareTuple => do
      let parts ← pullTuple prof (some bufEnd)
      return .tuple parts
  | .uint8 => do
      let v ← pullUint8
      return .int v
  | .varint => do
      let v ← pullVint prof.vint
      return .int v
  | .tuple => do
      let len ← pullVint prof.vint
      let start ← Reader.tell
      let remaining := bufEnd - start
      if bufEnd < start + len then
        Reader.fail (.violation s!"parameter length {len} exceeds remaining {remaining}")
      else do
        let parts ← pullTuple prof (some (start + len))
        let pos ← Reader.tell
        if pos ≠ start + len then
          Reader.fail (.violation "namespace parameter does not fill its length")
        else return .tuple parts
  | .bytes => pullBytesValue prof ptype bufEnd
  -- no scope that allows FILL_PARAMETERS inside FILL_PARAMETERS
  | .fill => Reader.fail .typeError

/-- The value of a parameter up to draft 16, by the parity of its type. -/
def pullParityValue (ptype bufEnd remaining : Nat) : Reader MoqtError PlainValue :=
  if ptype ∈ prof.locationParams then do
    let loc ← pullLocationParam prof bufEnd remaining ptype
    return .location loc.1 loc.2
  else if ptype % 2 = 1 then pullBytesValue prof ptype bufEnd
  else if ptype ∈ prof.uint8Params then do
    let v ← pullUint8
    return .int v
  else do
    let v ← pullVint prof.vint
    return .int v

/-- The value of a parameter that is not a block. -/
def pullPlainValue (bufEnd ptype remaining : Nat) : Reader MoqtError PlainValue :=
  if prof.draft18 then
    match paramKind prof ptype with
    | none => Reader.fail .typeError
    | some kind => pullKindValue prof kind ptype bufEnd remaining
  else pullParityValue prof ptype bufEnd remaining

end Value

/-! ## Reading a block

`_pull_params` collects the instances in wire order; the dictionary is what they
leave behind: the last one of a type, or from draft 20 on a list of those of a
repeatable type. -/

section Block

variable {α : Type} (prof : DraftProfile)

/-- `PARAM_VALUE_RANGES` and `VALUE_RANGES`: inclusive bounds. -/
def paramBounds (ptype : Nat) : Option (Nat × Nat) :=
  if ¬ prof.draft16 then none
  else if ptype = ParamType.forward then some (0, 1)
  else if ptype = ParamType.groupOrder then some (1, 2)
  else if ptype = ParamType.subscriberPriority then some (0, 255)
  else if prof.draft20 ∧ ptype = 0x35 then some (0, 1)
  else none

/-- A parameter the draft does not define, or the scope does not allow. -/
def checkParamType (scope : Option ParamScope) (ptype : Nat) : Except MoqtError Unit :=
  let type := hex ptype
  if prof.draft18 ∧ paramKind prof ptype = none then
    .error (.violation s!"unknown message parameter 0x{type} (§10.2: cannot be skipped)")
  else if (paramScope prof scope).any (ptype ∉ ·) then
    let scopeName := (scope.map ParamScope.name).getD ""
    .error (.violation s!"parameter 0x{type} not allowed in {scopeName}")
  else .ok ()

/-- A value outside the range of its parameter. -/
def checkParamValue (scope : Option ParamScope) (ptype : Nat) (scalar : Option Nat) :
    Except MoqtError Unit :=
  let type := hex ptype
  if scope ≠ none ∧ ptype = ParamType.deliveryTimeout ∧ prof.zeroDeliveryTimeoutCloses ∧
      scalar = some 0 then .error (.violation "DELIVERY_TIMEOUT of 0")
  else match paramBounds prof ptype, scalar with
    | some (lo, hi), some v =>
        if lo ≤ v ∧ v ≤ hi then .ok ()
        else .error (.violation s!"parameter 0x{type} {v} outside {lo}..{hi}")
    | _, _ => .ok ()

variable (scalar : α → Option Nat) (pullValue : Nat → Nat → Reader MoqtError α)
variable (bufEnd : Nat) (scope : Option ParamScope)

/-- One parameter: its type from `prevKey`, and its value. -/
def pullInstance (remaining prevKey : Nat) (items : List (Nat × α)) :
    Reader MoqtError (Nat × α) := do
  let raw ← pullVint prof.vint
  let ptype := if prof.paramsDeltaCoded then prevKey + raw else raw
  match checkParamType prof scope ptype with
  | .error e => Reader.fail e
  | .ok () => do
      let value ← pullValue ptype remaining
      let pos ← Reader.tell
      let type := hex ptype
      if bufEnd < pos then
        Reader.fail (.violation s!"parameter overran frame extent: {pos}/{bufEnd}")
      else match checkParamValue prof scope ptype (scalar value) with
        | .error e => Reader.fail e
        | .ok () =>
            if prof.draft20 ∧ ptype ∈ items.map Prod.fst ∧ ptype ∉ repeatable then
              Reader.fail (.violation s!"duplicate parameter 0x{type}")
            else return (ptype, value)

/-- The next `n` parameters of a block of `declared`. -/
def pullInstances (declared : Nat) : Nat → Nat → List (Nat × α) →
    Reader MoqtError (List (Nat × α))
  | 0, _, items => pure items
  | n + 1, prevKey, items => do
      let pos ← Reader.tell
      if bufEnd ≤ pos then
        Reader.fail (.violation
          s!"parameters declared {declared} but buffer exhausted at {pos}/{bufEnd}")
      else do
        let item ← pullInstance prof scalar pullValue bufEnd scope n prevKey items
        pullInstances declared n item.1 (items ++ [item])

/-- A block behind the number of its parameters. -/
def pullCounted : Reader MoqtError (List (Nat × α)) := do
  let count ← pullVint prof.vint
  pullInstances prof scalar pullValue bufEnd scope count count 0 []

/-- Parameters without a count, up to `bufEnd`. -/
def pullBare : Nat → Nat → List (Nat × α) → Reader MoqtError (List (Nat × α))
  | 0, _, items => pure items
  | fuel + 1, prevKey, items => do
      let pos ← Reader.tell
      if bufEnd ≤ pos then return items
      else do
        let item ← pullInstance prof scalar pullValue bufEnd scope 0 prevKey items
        pullBare fuel item.1 (items ++ [item])

/-- What one more instance leaves in the dictionary. -/
def storeParam (params : Dict Nat (Slot α)) (item : Nat × α) : Dict Nat (Slot α) :=
  if prof.draft20 then
    match params.get? item.1 with
    | some (.one prior) => params.insert item.1 (.many [prior, item.2])
    | some (.many prior) => params.insert item.1 (.many (prior ++ [item.2]))
    | none => params.insert item.1 (if item.1 ∈ rangeFilters then .many [item.2] else .one item.2)
  else params.insert item.1 (.one item.2)

/-- The dictionary of the instances read. -/
def collectParams (items : List (Nat × α)) : Dict Nat (Slot α) :=
  items.foldl (storeParam prof) .empty

end Block

section Params

variable (prof : DraftProfile)

/-- The failures that make a block be read again in its other form. -/
def MoqtError.isViolation : MoqtError → Bool
  | .underflow _ | .violation _ | .malformedKvp _ => true
  | _ => false

/-- The counted block of a FILL_PARAMETERS value. -/
def pullFillCounted (bufEnd : Nat) : Reader MoqtError (List (Nat × PlainValue)) :=
  pullCounted prof PlainValue.scalar (pullPlainValue prof bufEnd) bufEnd (some .fillParameters)

def pullFillBare (valueEnd : Nat) : Reader MoqtError (List (Nat × PlainValue)) := do
  let pos ← Reader.tell
  pullBare prof PlainValue.scalar (pullPlainValue prof valueEnd) valueEnd (some .fillParameters)
    (valueEnd - pos) 0 []

/-- `_pull_fill_value`: no type is below 0x0A, so a smaller first integer is a count;
a larger one only if the counted block ends at `valueEnd`. -/
def pullFillValue (valueEnd : Nat) : Reader MoqtError (List (Nat × PlainValue)) := fun cur =>
  match pullVint prof.vint cur with
  | .error e => .error e
  | .ok (first, _) =>
      if first < 0x0A then pullFillCounted prof valueEnd cur
      else match pullFillCounted prof valueEnd cur with
        | .ok (items, next) =>
            if next.pos = valueEnd then .ok (items, next) else pullFillBare prof valueEnd cur
        | .error e => if e.isViolation then pullFillBare prof valueEnd cur else .error e

/-- FILL_PARAMETERS behind its length. -/
def pullFillSized (bufEnd : Nat) : Reader MoqtError (List (Nat × PlainValue)) := do
  let len ← pullVint prof.vint
  let start ← Reader.tell
  let remaining := bufEnd - start
  if bufEnd < start + len then
    Reader.fail (.violation s!"FILL_PARAMETERS length {len} exceeds remaining {remaining}")
  else do
    let items ← (if len = 0 then pure [] else pullFillValue prof (start + len))
    let pos ← Reader.tell
    if pos ≠ start + len then
      Reader.fail (.violation "FILL_PARAMETERS does not fill its length")
    else return items

/-- The value of a parameter of a message; `fillCounted` reads FILL_PARAMETERS
without its length. -/
def pullParamValue (fillCounted : Bool) (bufEnd ptype remaining : Nat) :
    Reader MoqtError ParamValue :=
  if prof.draft18 ∧ paramKind prof ptype = some .fill then do
    let items ←
      (if fillCounted then pullFillCounted prof bufEnd else pullFillSized prof bufEnd)
    return .fill (collectParams prof items)
  else do
    let value ← pullPlainValue prof bufEnd ptype remaining
    return .plain value

/-- `_pull_params`: the parameters of a message in wire order. -/
def pullParams (fillCounted : Bool) (bufEnd : Nat) (scope : Option ParamScope) :
    Reader MoqtError (List (Nat × ParamValue)) :=
  pullCounted prof ParamValue.scalar (pullParamValue prof fillCounted bufEnd) bufEnd scope

def ParamValue.isFill : ParamValue → Bool
  | .fill _ => true
  | .plain _ => false

/-- The instances `_deserialize_params` reads.  A block with a FILL_PARAMETERS that
does not parse, or does not end at `bufEnd`, is reread with that value counted
instead of sized; a block without one reads the same both ways. -/
def deserializeItems (bufEnd : Nat) (scope : Option ParamScope) :
    Reader MoqtError (List (Nat × ParamValue)) := fun cur =>
  match pullParams prof false bufEnd scope cur with
  | .ok (items, next) =>
      if ¬ items.any (·.2.isFill) ∨ next.pos = bufEnd then .ok (items, next)
      else match pullParams prof true bufEnd scope cur with
        | .ok result => .ok result
        | .error e =>
            if e.isViolation then
              .error (.violation "FILL_PARAMETERS block does not end the parameters")
            else .error e
  | .error e => if e.isViolation then pullParams prof true bufEnd scope cur else .error e

/-- `_deserialize_params`. -/
def deserializeParams (bufEnd : Nat) (scope : Option ParamScope) : Reader MoqtError Params := do
  let items ← deserializeItems prof bufEnd scope
  return collectParams prof items

end Params

/-! ## Writing a block -/

section Serialize

variable {α : Type} (prof : DraftProfile)

/-- A value behind its length, a token in its structure. -/
def pushBytesValue (ptype : Nat) (value : PlainValue) : Except MoqtError Bytes :=
  if ptype = ParamType.authToken then do
    let raw ← authTokenWrap prof.vint value
    pushSized prof raw
  else match value with
    | .bytes raw => pushSized prof raw
    | _ => .error .typeError

def pushKindValue (kind : ParamKind) (ptype : Nat) (value : PlainValue) :
    Except MoqtError Bytes :=
  match kind, value with
  | .location, .location group object => do
      let head ← pushVint prof.vint group
      let tail ← pushVint prof.vint object
      return head ++ tail
  | .locationFilter, .locationFilter filter => filter.encode prof
  | .rangeFilter, .rangeFilter filter => filter.encode prof ptype
  | .bareTuple, .tuple parts => pushTuple prof parts
  | .uint8, .int v => pushUint8 v
  | .varint, .int v => pushVint prof.vint v
  | .tuple, .tuple parts => do
      let inner ← pushTuple prof parts
      pushSized prof inner
  | .bytes, value => pushBytesValue prof ptype value
  | _, _ => .error .typeError

def pushParityValue (ptype : Nat) (value : PlainValue) : Except MoqtError Bytes :=
  if ptype ∈ prof.locationParams then
    match value with
    | .location group object => do
        let head ← pushVint prof.vint group
        let tail ← pushVint prof.vint object
        return head ++ tail
    | _ => .error .typeError
  else if ptype % 2 = 1 then pushBytesValue prof ptype value
  else match value with
    | .int v => if ptype ∈ prof.uint8Params then pushUint8 v else pushVint prof.vint v
    | _ => .error .typeError

def pushPlainValue (ptype : Nat) (value : PlainValue) : Except MoqtError Bytes :=
  if prof.draft18 then
    let type := hex ptype
    let table := prof.paramTable
    match paramKind prof ptype with
    | none => .error (.valueError s!"param 0x{type} is not a d{table} message parameter (§15.7)")
    | some kind => pushKindValue prof kind ptype value
  else pushParityValue prof ptype value

/-- The instances of a dictionary: ascending where types are deltas, and a list of a
repeatable parameter as one instance each. -/
def paramItems (params : Dict Nat (Slot α)) : List (Nat × Slot α) :=
  (if prof.paramsDeltaCoded then params.sorted else params.entries).flatMap fun (ptype, slot) =>
    match slot with
    | .many vs => if prof.draft20 ∧ ptype ∈ repeatable then vs.map fun v => (ptype, .one v)
        else [(ptype, slot)]
    | .one _ => [(ptype, slot)]

variable (pushValue : Nat → α → Except MoqtError Bytes)

def pushItems : Nat → List (Nat × Slot α) → Except MoqtError Bytes
  | _, [] => .ok []
  | prevKey, (ptype, slot) :: rest => do
      let key ← pushVint prof.vint (if prof.paramsDeltaCoded then (ptype : Int) - prevKey else ptype)
      let value ← match slot with
        | .one v => pushValue ptype v
        | .many _ => .error .typeError
      let tail ← pushItems ptype rest
      return key ++ value ++ tail

/-- `_serialize_params`. -/
def serializeWith (params : Dict Nat (Slot α)) : Except MoqtError Bytes := do
  let items := paramItems prof params
  let count ← pushVint prof.vint items.length
  let body ← pushItems prof pushValue 0 items
  return count ++ body

/-- A value of a message's parameter: FILL_PARAMETERS is a counted block behind its
length. -/
def pushParamValue (ptype : Nat) : ParamValue → Except MoqtError Bytes
  | .plain v => pushPlainValue prof ptype v
  | .fill params =>
      if prof.draft18 ∧ paramKind prof ptype = some .fill then do
        let inner ← serializeWith prof (pushPlainValue prof) params
        pushSized prof inner
      else .error .typeError

def serializeParams (params : Params) : Except MoqtError Bytes :=
  serializeWith prof (pushParamValue prof) params

end Serialize

end AioMoqt.Messages
