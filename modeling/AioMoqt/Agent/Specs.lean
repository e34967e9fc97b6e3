import AioMoqt.Agent.Schema

/-!
# The specs

The spec classes of `agent/spec.py`, with their fields, markers, defaults and checks.
-/

namespace AioMoqt.Agent

open AioMoqt.Lib AioMoqt.Lib.JsonSchema

/-- The spec classes. -/
inductive SpecName where
  | trackRef
  | startAt
  | priority
  | subscribeSpec
  | fetchSpec
  | publishSpec
  deriving DecidableEq, Repr

/-- `START_MODES`. -/
def startModes : List String := ["latest", "next_group", "group", "range"]

/-- `GROUP_ORDERS`. -/
def groupOrders : List String := ["ascending", "descending", "publisher_default"]

/-- `ON_FULL`. -/
def onFull : List String := ["drop_oldest", "drop_new", "block", "error"]

/-- `MAPPINGS`. -/
def mappings : List String := ["per_group", "per_object", "datagram"]

/-- `DECODES`. -/
def decodes : List String := ["bytes", "text", "json"]

/-- `DEFAULT_BUFFER`. -/
def defaultBuffer : Int := 256

/-- `DEFAULT_TIMEOUT_S`. -/
def defaultTimeoutS : PyFloat := .finite 30

namespace Attr

def isNone : Attr SpecName → Bool
  | none => true
  | _ => false

/-- Whether it is this text. -/
def is (text : String) : Attr SpecName → Bool
  | str s => s = text
  | _ => false

end Attr

/-! ## The classes -/

/-- `TrackRef`. -/
def trackRef : SpecClass SpecName where
  name := "TrackRef"
  fields := [
    { name := "namespace", target := .str },
    { name := "name", target := .str, optional := true, default := some .none },
    { name := "relay", target := .str, optional := true, default := some .none }]
  nodup := by decide

/-- The fields of `StartAt` that only some modes use. -/
def StartAt.numbered : List String := ["group", "object", "end_group"]

/-- `StartAt.__post_init__`, behind `check_instance`. -/
def StartAt.postInit (attr : String → Attr SpecName) : Except Raised Unit :=
  if (attr "mode").is "group" ∧ (attr "group").isNone then
    .error (.specError "StartAt: mode 'group' needs `group`")
  else if (attr "mode").is "range" then
    match attr "group", attr "end_group" with
    | .int group, .int endGroup =>
        if endGroup < group then .error (.specError "StartAt: end_group precedes group") else .ok ()
    | _, _ => .error (.specError "StartAt: mode 'range' needs `group` and `end_group`")
  else if (attr "mode").is "latest" ∨ (attr "mode").is "next_group" then
    if StartAt.numbered.any fun name => !(attr name).isNone then
      .error (.specError "StartAt: the mode does not use the field")
    else .ok ()
  else .ok ()

/-- A condition of `StartAt.schema_constraints`: where `mode` is given and is as the test has it. -/
def StartAt.when (test consequence : Schema SpecName) : Schema SpecName :=
  { condition := some ({ properties := [("mode", test)], required := ["mode"] }, consequence) }

/-- `StartAt.schema_constraints`. -/
def StartAt.schemaConstraints : List (Schema SpecName) :=
  let unused := StartAt.numbered.map fun name =>
    (name, ({ type := some .null } : Schema SpecName))
  [StartAt.when { const := some "group" } { required := ["mode", "group"] },
   StartAt.when { const := some "range" } { required := ["mode", "group", "end_group"] },
   StartAt.when { enum := some ["latest", "next_group"] } { properties := unused }]

/-- The field `mode`. -/
def StartAt.modeField : Field SpecName :=
  { name := "mode", target := .str, choices := some startModes, default := some (.str "latest") }

/-- A field for the number of a group or an object. -/
def StartAt.numberField (name : String) : Field SpecName :=
  { name := name, target := .int, optional := true, range := some { minimum := some 0 },
    default := some .none }

/-- `StartAt`. -/
def startAt : SpecClass SpecName where
  name := "StartAt"
  fields := [
    StartAt.modeField,
    StartAt.numberField "group",
    StartAt.numberField "object",
    StartAt.numberField "end_group"]
  nodup := by decide
  schemaConstraints := StartAt.schemaConstraints
  postInit := StartAt.postInit

/-- `Priority`. -/
def priority : SpecClass SpecName where
  name := "Priority"
  fields := [
    { name := "subscriber", target := .int, optional := true,
      range := some { minimum := some 0, maximum := some 255 }, default := some .none },
    { name := "publisher", target := .int, optional := true,
      range := some { minimum := some 0, maximum := some 255 }, default := some .none },
    { name := "group_order", target := .str, optional := true, choices := some groupOrders,
      default := some .none },
    { name := "delivery_timeout_ms", target := .int, optional := true,
      range := some { minimum := some 0 }, default := some .none }]
  nodup := by decide

/-- The attributes of an instance that is made without arguments. -/
def SpecClass.defaults {κ : Type} (cls : SpecClass κ) : List (String × Attr κ) :=
  cls.fields.map fun f => (f.name, f.default.getD .none)

/-- The field `track`. -/
def trackField : Field SpecName := { name := "track", target := .spec .trackRef }

/-- The field `priority`. -/
def priorityField : Field SpecName :=
  { name := "priority", target := .spec .priority,
    default := some (.spec .priority priority.defaults []) }

/-- The field `buffer`. -/
def bufferField : Field SpecName :=
  { name := "buffer", target := .int, range := some { minimum := some 1, maximum := some 65536 },
    default := some (.int defaultBuffer) }

/-- The field `decode`. -/
def decodeField : Field SpecName :=
  { name := "decode", target := .str, choices := some decodes, default := some (.str "bytes") }

/-- The field `timeout_s`. -/
def timeoutField : Field SpecName :=
  { name := "timeout_s", target := .float, range := some { minimum := some 0 },
    default := some (.float defaultTimeoutS) }

/-- The field `start_at` of a subscription. -/
def SubscribeSpec.startField : Field SpecName :=
  { name := "start_at", target := .spec .startAt,
    default := some (.spec .startAt startAt.defaults []) }

/-- `SubscribeSpec`. -/
def subscribeSpec : SpecClass SpecName where
  name := "SubscribeSpec"
  fields := [
    trackField,
    SubscribeSpec.startField,
    priorityField,
    { name := "forward", target := .bool, default := some (.bool true) },
    bufferField,
    { name := "on_full", target := .str, choices := some onFull,
      default := some (.str "drop_oldest") },
    decodeField,
    timeoutField]
  nodup := by decide
  hasExtra := true

/-- `FetchSpec.__post_init__`, behind `check_instance`. -/
def FetchSpec.postInit (attr : String → Attr SpecName) : Except Raised Unit :=
  match attr "start_at" with
  | .spec _ attrs _ =>
      if (attrOf attrs "mode").is "range" then .ok ()
      else .error (.specError "FetchSpec: start_at.mode must be 'range'")
  | _ => .error .attributeError

/-- `FetchSpec.schema_constraints`. -/
def FetchSpec.schemaConstraints : List (Schema SpecName) :=
  [{ properties := [("start_at",
      { properties := [("mode", { const := some "range" })],
        required := ["mode", "group", "end_group"] })] }]

/-- The field `start_at` of a fetch, which has to be given. -/
def FetchSpec.startField : Field SpecName := { name := "start_at", target := .spec .startAt }

/-- `FetchSpec`. -/
def fetchSpec : SpecClass SpecName where
  name := "FetchSpec"
  fields := [
    trackField,
    FetchSpec.startField,
    priorityField,
    decodeField,
    timeoutField]
  nodup := by decide
  hasExtra := true
  schemaConstraints := FetchSpec.schemaConstraints
  postInit := FetchSpec.postInit

/-- `PublishSpec`. -/
def publishSpec : SpecClass SpecName where
  name := "PublishSpec"
  fields := [
    trackField,
    priorityField,
    { name := "mapping", target := .str, choices := some mappings,
      default := some (.str "per_group") },
    { name := "group_size", target := .int, optional := true, range := some { minimum := some 1 },
      default := some .none },
    { name := "announce", target := .bool, default := some (.bool true) },
    bufferField,
    { name := "on_full", target := .str, choices := some onFull, default := some (.str "block") }]
  nodup := by decide
  hasExtra := true

/-- The spec classes that the agent has. -/
def specs : Registry SpecName where
  cls
    | .trackRef => trackRef
    | .startAt => startAt
    | .priority => priority
    | .subscribeSpec => subscribeSpec
    | .fetchSpec => fetchSpec
    | .publishSpec => publishSpec
  all := [.trackRef, .startAt, .priority, .subscribeSpec, .fetchSpec, .publishSpec]
  mem_all := fun k => by cases k <;> decide

end AioMoqt.Agent
