import AioMoqt.Lib.Json
import AioMoqt.Lib.Replay

/-!
# MSF catalogs

`media/catalog.py`: the root catalog, its tracks, how both are written as JSON objects and
read back, and the delta engine.  Attributes that hold any JSON value hold `null` for `None`.
-/

namespace AioMoqt.Media

open AioMoqt.Lib

/-- `CatalogError`, and under `malformed` what reading a document of another shape raises. -/
inductive CatalogError where
  | notDelta
  | unknownOp (op : Json)
  | ambiguous (name : Json)
  | addUnnamed
  | addDeclared (key : Json × Json)
  | updateUnnamed
  | updateUnknown (key : Json × Json)
  | removeUnknown (key : Json × Json)
  | cloneParentless
  | cloneUnknownParent (key : Json × Json)
  | cloneUnnamed
  | cloneDeclared (key : Json × Json)
  | unsupportedVersion (version : Json)
  | notObject
  | malformed
deriving DecidableEq

/-- `d.get(k)`, `None` when absent. -/
def field (d : Dict String Json) (key : String) : Json := (d.get? key).getD .null

/-! ## Tracks -/

/-- `_TRACK_KEYS`. -/
inductive TrackKey where
  | name | namespace | packaging | eventType | isLive | targetLatency | buffers | role | label
  | renderGroup | altGroup | initRef | depends | temporalId | spatialId | codec | mimeType
  | framerate | timescale | bitrate | avgBitrate | maxGopDuration | maxGroupDuration | width
  | height | samplerate | channelConfig | displayWidth | displayHeight | lang | parentName
  | parentNamespace | trackDuration | template | authInfo | accessibility | locmafVersion
deriving DecidableEq

namespace TrackKey

/-- The keys as they are written. -/
def text : TrackKey → String
  | name => "name"
  | «namespace» => "namespace"
  | packaging => "packaging"
  | eventType => "eventType"
  | isLive => "isLive"
  | targetLatency => "targetLatency"
  | buffers => "buffers"
  | role => "role"
  | label => "label"
  | renderGroup => "renderGroup"
  | altGroup => "altGroup"
  | initRef => "initRef"
  | depends => "depends"
  | temporalId => "temporalId"
  | spatialId => "spatialId"
  | codec => "codec"
  | mimeType => "mimeType"
  | framerate => "framerate"
  | timescale => "timescale"
  | bitrate => "bitrate"
  | avgBitrate => "avgBitrate"
  | maxGopDuration => "maxGopDuration"
  | maxGroupDuration => "maxGroupDuration"
  | width => "width"
  | height => "height"
  | samplerate => "samplerate"
  | channelConfig => "channelConfig"
  | displayWidth => "displayWidth"
  | displayHeight => "displayHeight"
  | lang => "lang"
  | parentName => "parentName"
  | parentNamespace => "parentNamespace"
  | trackDuration => "trackDuration"
  | template => "template"
  | authInfo => "authInfo"
  | accessibility => "accessibility"
  | locmafVersion => "locmafVersion"

/-- In the order of the class. -/
def all : List TrackKey :=
  [name, «namespace», packaging, eventType, isLive, targetLatency, buffers, role, label,
    renderGroup, altGroup, initRef, depends, temporalId, spatialId, codec, mimeType, framerate,
    timescale, bitrate, avgBitrate, maxGopDuration, maxGroupDuration, width, height, samplerate,
    channelConfig, displayWidth, displayHeight, lang, parentName, parentNamespace, trackDuration,
    template, authInfo, accessibility, locmafVersion]

def texts : List String := all.map text

end TrackKey

/-- `CatalogTrack`.  What is not a key of the class is kept as it came. -/
@[ext] structure CatalogTrack where
  attr : TrackKey → Json
  extra : Dict String Json := .empty
  custom : ∀ key ∈ extra.keys, key ∉ TrackKey.texts := by simp [Dict.keys, Dict.empty]

namespace CatalogTrack

variable (t : CatalogTrack)

/-- `key`. -/
def key : Json × Json := (t.attr .namespace, t.attr .name)

/-- `to_dict`. -/
def toDict : Dict String Json :=
  (Dict.ofEntries (TrackKey.all.filterMap fun key =>
    if t.attr key = .null then none else some (key.text, t.attr key))).update t.extra

/-- `from_dict`. -/
def fromDict (d : Dict String Json) : CatalogTrack where
  attr := fun key => field d key.text
  extra := d.filterKeys fun key => key ∉ TrackKey.texts
  custom := by
    intro key hkey
    simp only [Dict.keys, Dict.filterKeys, List.mem_map, List.mem_filter] at hkey
    grind

/-- `CatalogTrack(**attrs)`. -/
def ofAttrs (attrs : List (TrackKey × Json)) : CatalogTrack where
  attr := fun key => ((attrs.find? fun entry => entry.1 = key).map Prod.snd).getD .null

instance : DecidableEq CatalogTrack := fun a b =>
  decidable_of_iff ((∀ key ∈ TrackKey.all, a.attr key = b.attr key) ∧
      a.extra.entries = b.extra.entries) (by
    constructor
    · intro h
      apply CatalogTrack.ext
      · funext key
        apply h.1 key
        cases key <;> decide
      · exact Dict.ext h.2
    · rintro rfl
      simp)

end CatalogTrack

/-! ## Catalogs -/

/-- `InitData`. -/
structure InitData where
  id : Json
  data : Json := .str ""
  type : Json := .str "inline"
deriving DecidableEq

/-- `DeltaOp`. -/
structure DeltaOp where
  op : Json
  tracks : List CatalogTrack := []
deriving DecidableEq

/-- The keys `Catalog.from_dict` knows. -/
def catalogKeys : List String :=
  ["version", "generatedAt", "isComplete", "tracks", "publishTracks", "deltaUpdate",
    "initDataList"]

/-- `Catalog`.  Only whether `isComplete` is true counts, and no list of operations is an
empty one. -/
@[ext] structure Catalog where
  version : Json := .str "draft-01"
  generatedAt : Json := .null
  isComplete : Bool := false
  tracks : List CatalogTrack := []
  publishTracks : Option (List CatalogTrack) := none
  deltaUpdate : List DeltaOp := []
  initDataList : Option (List InitData) := none
  extra : Dict String Json := .empty
  custom : ∀ key ∈ extra.keys, key ∉ catalogKeys := by simp [Dict.keys, Dict.empty]

/-- `MSF_VERSIONS`. -/
def msfVersions : List Json := [.str "1", .str "draft-01"]

/-! ## JSON -/

namespace InitData

/-- `to_dict`. -/
def toDict (init : InitData) : Dict String Json :=
  .ofEntries [("id", init.id), ("type", init.type), ("data", init.data)]

/-- `from_dict`. -/
def fromDict (d : Dict String Json) : Except CatalogError InitData :=
  match d.get? "id" with
  | none => .error .malformed
  | some id => .ok
      { id := id
        data := (d.get? "data").getD (.str "")
        type := (d.get? "type").getD (.str "inline") }

end InitData

/-- `[read(x) for x in v]` where each x has to be an object. -/
def readList {α : Type} (read : Dict String Json → Except CatalogError α) (v : Json) :
    Except CatalogError (List α) :=
  match v.items? with
  | none => .error .malformed
  | some items => items.mapM fun item => match item.dict? with
    | none => .error .malformed
    | some d => read d

/-- The tracks of a list. -/
def readTracks : Json → Except CatalogError (List CatalogTrack) :=
  readList fun d => .ok (CatalogTrack.fromDict d)

/-- Tracks as they are written. -/
def writeTracks (tracks : List CatalogTrack) : Json :=
  .arr (tracks.map fun t => .ofDict t.toDict)

namespace DeltaOp

/-- `to_dict`. -/
def toDict (op : DeltaOp) : Dict String Json :=
  .ofEntries [("op", op.op), ("tracks", writeTracks op.tracks)]

/-- `from_dict`. -/
def fromDict (d : Dict String Json) : Except CatalogError DeltaOp := do
  let tracks ← readTracks ((d.get? "tracks").getD (.arr []))
  return { op := (d.get? "op").getD (.str ""), tracks := tracks }

end DeltaOp

namespace Catalog

variable (c : Catalog)

/-- `is_delta`. -/
def isDelta : Bool := !c.deltaUpdate.isEmpty

/-- An entry that is there under a condition. -/
def entryIf (present : Bool) (key : String) (v : Json) : List (String × Json) :=
  if present then [(key, v)] else []

/-- The entries of `to_dict` before the custom ones. -/
def rootEntries : List (String × Json) :=
  entryIf (!c.isDelta && c.version ≠ .null) "version" c.version ++
  entryIf (c.generatedAt ≠ .null) "generatedAt" c.generatedAt ++
  entryIf c.isComplete "isComplete" (.bool true) ++
  entryIf (!c.isDelta) "tracks" (writeTracks c.tracks) ++
  entryIf c.publishTracks.isSome "publishTracks" (writeTracks (c.publishTracks.getD [])) ++
  entryIf c.isDelta "deltaUpdate" (.arr (c.deltaUpdate.map fun op => .ofDict op.toDict))

/-- `to_dict`. -/
def toDict : Dict String Json :=
  let d := (Dict.ofEntries c.rootEntries).update c.extra
  match c.initDataList with
  | none => d
  | some inits => d.insert "initDataList" (.arr (inits.map fun init => .ofDict init.toDict))

/-- The document of `to_json`. -/
def toJson : Json := .ofDict c.toDict

/-- `str(version)` of a number. -/
def normalizeVersion : Json → Json
  | .int n => .str (toString n)
  | .bool true => .str "True"
  | .bool false => .str "False"
  | v => v

/-- The delta operations of a document. -/
def readOps (d : Dict String Json) : Except CatalogError (List DeltaOp) :=
  if (field d "deltaUpdate").truthy then
    readList DeltaOp.fromDict (field d "deltaUpdate")
  else .ok []

/-- A list that is read where its key is there. -/
def readOptional {α : Type} (read : Json → Except CatalogError (List α))
    (d : Dict String Json) (key : String) : Except CatalogError (Option (List α)) :=
  match d.get? key with
  | none => .ok none
  | some v => (read v).map some

/-- The refusal of a version, which a delta need not have. -/
def checkVersion (d : Dict String Json) : Except CatalogError Unit :=
  if !(field d "deltaUpdate").truthy &&
      normalizeVersion (field d "version") ∉ msfVersions then
    .error (.unsupportedVersion (normalizeVersion (field d "version")))
  else .ok ()

/-- `from_dict`. -/
def fromDict (d : Dict String Json) : Except CatalogError Catalog := do
  checkVersion d
  let tracks ← readTracks ((d.get? "tracks").getD (.arr []))
  let publishTracks ← readOptional readTracks d "publishTracks"
  let deltaUpdate ← readOps d
  let initDataList ← readOptional (readList InitData.fromDict) d "initDataList"
  return {
    version := normalizeVersion (field d "version")
    generatedAt := field d "generatedAt"
    isComplete := (field d "isComplete").truthy
    tracks := tracks
    publishTracks := publishTracks
    deltaUpdate := deltaUpdate
    initDataList := initDataList
    extra := d.filterKeys fun key => key ∉ catalogKeys
    custom := by
      intro key hkey
      simp only [Dict.keys, Dict.filterKeys, List.mem_map, List.mem_filter] at hkey
      grind }

/-- `from_json`, of the document that was read. -/
def fromJson (v : Json) : Except CatalogError Catalog :=
  match v.dict? with
  | none => .error .notObject
  | some d => fromDict d

/-- The catalog as its reader has it: a delta is written without version and tracks. -/
def written : Catalog := if c.isDelta then { c with version := .null, tracks := [] } else c

/-- A version that a reader takes: any, of a delta. -/
def Readable : Prop := c.isDelta ∨ c.version ∈ msfVersions

instance : Decidable c.Readable := inferInstanceAs (Decidable (_ ∨ _))

/-! ## Delta updates -/

/-- `find`. -/
def find (tracks : List CatalogTrack) (name ns : Json) :
    Except CatalogError (Option CatalogTrack) :=
  match tracks.filter fun t =>
      t.attr .name = name ∧ (ns = .null ∨ t.attr .namespace = ns) with
  | [] => .ok none
  | [t] => .ok (some t)
  | _ => .error (.ambiguous name)

/-- A track with another's attributes put over its own; the parent's name is not one. -/
def merge (base overrides : CatalogTrack) : CatalogTrack :=
  .fromDict (base.toDict.update
    ((overrides.toDict.erase "parentName").erase "parentNamespace"))

/-- `_op_add`. -/
def opAdd (tracks : List CatalogTrack) (t : CatalogTrack) :
    Except CatalogError (List CatalogTrack) :=
  if !(t.attr .name).truthy then .error .addUnnamed
  else if ∃ x ∈ tracks, x.key = t.key then .error (.addDeclared t.key)
  else .ok (tracks ++ [t])

/-- `_op_update`. -/
def opUpdate (tracks : List CatalogTrack) (t : CatalogTrack) :
    Except CatalogError (List CatalogTrack) := do
  let parent := (t.attr .parentName).truthy
  let name := if parent then t.attr .parentName else t.attr .name
  let ns := if parent then t.attr .parentNamespace else t.attr .namespace
  if !name.truthy then .error .updateUnnamed
  else match ← find tracks name ns with
    | none => .error (.updateUnknown (ns, name))
    | some found => .ok (tracks.set (tracks.idxOf found) (merge found t))

/-- `_op_remove`. -/
def opRemove (tracks : List CatalogTrack) (t : CatalogTrack) :
    Except CatalogError (List CatalogTrack) := do
  match ← find tracks (t.attr .name) (t.attr .namespace) with
  | none => .error (.removeUnknown t.key)
  | some found => .ok (tracks.erase found)

/-- `_op_clone`. -/
def opClone (tracks : List CatalogTrack) (t : CatalogTrack) :
    Except CatalogError (List CatalogTrack) := do
  if !(t.attr .parentName).truthy then .error .cloneParentless
  else match ← find tracks (t.attr .parentName) (t.attr .parentNamespace) with
    | none => .error (.cloneUnknownParent (t.attr .parentNamespace, t.attr .parentName))
    | some parent =>
        let clone := merge parent t
        if !(t.attr .name).truthy ∨ clone.key = parent.key then .error .cloneUnnamed
        else if ∃ x ∈ tracks, x.key = clone.key then .error (.cloneDeclared clone.key)
        else .ok (tracks ++ [clone])

/-- The handler of an operation. -/
def handler (op : Json) :
    Option (List CatalogTrack → CatalogTrack → Except CatalogError (List CatalogTrack)) :=
  if op = .str "add" then some opAdd
  else if op = .str "remove" then some opRemove
  else if op = .str "clone" then some opClone
  else if op = .str "update" then some opUpdate
  else none

/-- The tracks of one operation.  The catalog changes in place: what was done before an error
stays. -/
def runTracks (handle : List CatalogTrack → CatalogTrack → Except CatalogError (List CatalogTrack)) :
    List CatalogTrack → List CatalogTrack → List CatalogTrack × Option CatalogError
  | tracks, [] => (tracks, none)
  | tracks, t :: rest => match handle tracks t with
    | .error e => (tracks, some e)
    | .ok tracks => runTracks handle tracks rest

/-- The operations of a delta. -/
def runOps : List CatalogTrack → List DeltaOp → List CatalogTrack × Option CatalogError
  | tracks, [] => (tracks, none)
  | tracks, op :: ops => match handler op.op with
    | none => (tracks, some (.unknownOp op.op))
    | some handle => match runTracks handle tracks op.tracks with
      | (tracks, some e) => (tracks, some e)
      | (tracks, none) => runOps tracks ops

/-- `apply`: the catalog as it is left, and the error if one was raised. -/
def apply (update : Catalog) : Catalog × Option CatalogError :=
  if !update.isDelta then (c, some .notDelta)
  else match runOps c.tracks update.deltaUpdate with
    | (tracks, some e) => ({ c with tracks := tracks }, some e)
    | (tracks, none) =>
        ({ c with
            tracks := tracks
            generatedAt := if update.generatedAt = .null then c.generatedAt else update.generatedAt
            initDataList := match update.initDataList with
              | none => c.initDataList
              | some [] => c.initDataList
              | some inits => some (c.initDataList.getD [] ++ inits) }, none)

end Catalog

/-- Catalogs as updates: an independent one is a value, a delta is applied. -/
def catalogUpdates : Updates Catalog Catalog where
  full := fun update => if update.isDelta then none else some update
  change := fun catalog update => match catalog.apply update with
    | (catalog, none) => some catalog
    | (_, some _) => none

end AioMoqt.Media
