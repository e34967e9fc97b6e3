import AioMoqt.Media.Catalog

/-!
# Catalogs on the wire

A catalog read back from the JSON it was written as is that catalog, and a delta read back
does to a catalog what it did before.
-/

namespace AioMoqt.Media

open AioMoqt.Lib

/-! ## Dictionaries of known keys -/

theorem texts_nodup : TrackKey.texts.Nodup := by decide +kernel

theorem TrackKey.mem_all (key : TrackKey) : key ∈ TrackKey.all := by cases key <;> decide

theorem TrackKey.text_mem (key : TrackKey) : key.text ∈ TrackKey.texts :=
  List.mem_map_of_mem key.mem_all

theorem TrackKey.text_injective : Function.Injective TrackKey.text := by
  intro a b h
  exact List.inj_on_of_nodup_map texts_nodup a.mem_all b.mem_all h

namespace CatalogTrack

variable (t : CatalogTrack)

/-- The attributes that are written. -/
def known : List (String × Json) :=
  TrackKey.all.filterMap fun key =>
    if t.attr key = .null then none else some (key.text, t.attr key)

theorem mem_known {entry : String × Json} :
    entry ∈ t.known ↔ ∃ key : TrackKey, t.attr key ≠ .null ∧ entry = (key.text, t.attr key) := by
  simp only [known, List.mem_filterMap]
  constructor
  · rintro ⟨key, -, hentry⟩
    by_cases hnull : t.attr key = .null
    · rw [if_pos hnull] at hentry
      cases hentry
    · rw [if_neg hnull] at hentry
      exact ⟨key, hnull, (Option.some.inj hentry).symm⟩
  · rintro ⟨key, hnull, rfl⟩
    exact ⟨key, key.mem_all, if_neg hnull⟩

theorem known_sublist (keys : List TrackKey) :
    ((keys.filterMap fun key =>
      if t.attr key = .null then none else some (key.text, t.attr key)).map Prod.fst).Sublist
      (keys.map TrackKey.text) := by
  induction keys with
  | nil => exact List.Sublist.refl _
  | cons key keys ih =>
      by_cases hnull : t.attr key = .null
      · rw [List.filterMap_cons_none (by simp [hnull]), List.map_cons]
        exact ih.cons key.text
      · rw [List.filterMap_cons_some (b := (key.text, t.attr key)) (by simp [hnull])]
        rw [List.map_cons, List.map_cons]
        exact ih.cons_cons key.text

theorem known_nodup : (t.known.map Prod.fst).Nodup :=
  texts_nodup.sublist (t.known_sublist TrackKey.all)

theorem ofEntries_known : (Dict.ofEntries t.known).entries = t.known := by
  rw [Dict.ofEntries, Dict.insertAll_new t.known_nodup (by simp [Dict.empty, Dict.keys])]
  rfl

theorem get?_known (key : TrackKey) :
    (Dict.ofEntries t.known).get? key.text =
      if t.attr key = .null then none else some (t.attr key) := by
  apply Option.ext
  intro v
  rw [Dict.get?_eq_some, ofEntries_known, mem_known]
  constructor
  · rintro ⟨key', hnull, heq⟩
    obtain ⟨htext, rfl⟩ := Prod.ext_iff.mp heq
    rw [TrackKey.text_injective htext, if_neg hnull]
  · intro hv
    by_cases hnull : t.attr key = .null
    · rw [if_pos hnull] at hv
      cases hv
    · rw [if_neg hnull] at hv
      exact ⟨key, hnull, by rw [Option.some.inj hv]⟩

theorem field_toDict (key : TrackKey) : field t.toDict key.text = t.attr key := by
  have hextra : t.extra.get? key.text = none :=
    Dict.get?_eq_none fun hmem => t.custom _ hmem key.text_mem
  have hknown := t.get?_known key
  rw [field, toDict, Dict.get?_update, hextra, Option.none_or]
  show ((Dict.ofEntries t.known).get? key.text).getD Json.null = t.attr key
  rw [hknown]
  split
  next hnull => exact hnull.symm
  next => rfl

theorem extra_toDict : (t.toDict.filterKeys fun key => key ∉ TrackKey.texts) = t.extra := by
  have hkept : ∀ key ∈ t.extra.keys, decide (key ∉ TrackKey.texts) = true := by
    intro key hkey
    exact decide_eq_true (t.custom key hkey)
  have hnone : ((Dict.ofEntries t.known).filterKeys fun key => key ∉ TrackKey.texts) = .empty := by
    apply Dict.ext
    show (Dict.ofEntries t.known).entries.filter _ = []
    rw [ofEntries_known, List.filter_eq_nil_iff]
    intro entry hentry
    obtain ⟨key, -, rfl⟩ := t.mem_known.mp hentry
    simpa using key.text_mem
  show ((Dict.ofEntries t.known).update t.extra).filterKeys _ = t.extra
  rw [Dict.filterKeys_update hkept, hnone, Dict.empty_update]

/-- A track is read back as it was written. -/
theorem fromDict_toDict : fromDict t.toDict = t := by
  apply CatalogTrack.ext
  · funext key
    exact t.field_toDict key
  · exact t.extra_toDict

end CatalogTrack

/-! ## Lists -/

theorem mapM_ok {α β ε : Type} {f : α → Except ε β} {g : β → α} (h : ∀ b, f (g b) = .ok b)
    (xs : List β) : (xs.map g).mapM f = .ok xs := by
  induction xs with
  | nil => rfl
  | cons x xs ih =>
      rw [List.map_cons, List.mapM_cons, h, ih]
      rfl

theorem readList_write {α : Type} {read : Dict String Json → Except CatalogError α}
    {write : α → Dict String Json} (h : ∀ a, read (write a) = .ok a) (xs : List α) :
    readList read (.arr (xs.map fun a => .ofDict (write a))) = .ok xs := by
  simp only [readList, Json.items?_arr]
  apply mapM_ok
  intro a
  rw [Json.dict?_ofDict]
  exact h a

theorem readTracks_write (tracks : List CatalogTrack) :
    readTracks (writeTracks tracks) = .ok tracks :=
  readList_write (fun t : CatalogTrack => congrArg Except.ok t.fromDict_toDict) tracks

theorem InitData.fromDict_toDict (init : InitData) : fromDict init.toDict = .ok init := by
  obtain ⟨id, data, type⟩ := init
  simp [toDict, fromDict, Dict.ofEntries, Dict.get?_insert]

theorem DeltaOp.fromDict_toDict (op : DeltaOp) : fromDict op.toDict = .ok op := by
  obtain ⟨op, tracks⟩ := op
  simp only [toDict, fromDict, Dict.ofEntries, Dict.insertAll_cons, Dict.insertAll_nil,
    Dict.get?_insert, if_true, Option.getD_some, readTracks_write]
  rfl

/-! ## Catalogs -/

namespace Catalog

variable (c : Catalog)

theorem get?_entries {entries : List (String × Json)} (hnodup : (entries.map Prod.fst).Nodup)
    {key : String} {v : Json} : (Dict.ofEntries entries).get? key = some v ↔ (key, v) ∈ entries := by
  rw [Dict.get?_eq_some, Dict.ofEntries, Dict.insertAll_new hnodup (by simp [Dict.empty, Dict.keys])]
  rfl

theorem mem_entryIf {present : Bool} {key : String} {v : Json} {entry : String × Json} :
    entry ∈ entryIf present key v ↔ present = true ∧ entry = (key, v) := by
  cases present <;> simp [entryIf]

theorem rootEntries_sublist : (c.rootEntries.map Prod.fst).Sublist
    ["version", "generatedAt", "isComplete", "tracks", "publishTracks", "deltaUpdate"] := by
  have hentry : ∀ (present : Bool) (key : String) (v : Json),
      ((entryIf present key v).map Prod.fst).Sublist [key] := by
    intro present key v
    cases present <;> simp [entryIf]
  simp only [rootEntries, List.map_append]
  exact (((((hentry _ _ _).append (hentry _ _ _)).append (hentry _ _ _)).append
    (hentry _ _ _)).append (hentry _ _ _)).append (hentry _ _ _)

theorem rootEntries_nodup : (c.rootEntries.map Prod.fst).Nodup :=
  List.Nodup.sublist c.rootEntries_sublist (by decide)

theorem rootEntries_known {entry : String × Json} (h : entry ∈ c.rootEntries) :
    entry.1 ∈ catalogKeys := by
  have hmem := c.rootEntries_sublist.subset (List.mem_map_of_mem h)
  simp only [catalogKeys, List.mem_cons] at hmem ⊢
  grind

/-- A known key but the last is looked up among the root entries. -/
theorem get?_toDict {key : String} (hkey : key ∈ catalogKeys) (hinit : key ≠ "initDataList") :
    c.toDict.get? key = (Dict.ofEntries c.rootEntries).get? key := by
  have hextra : c.extra.get? key = none := Dict.get?_eq_none fun hmem => c.custom _ hmem hkey
  have hroot : ((Dict.ofEntries c.rootEntries).update c.extra).get? key =
      (Dict.ofEntries c.rootEntries).get? key := by
    rw [Dict.get?_update, hextra, Option.none_or]
  rw [toDict]
  cases c.initDataList with
  | none => exact hroot
  | some inits =>
      simp only []
      rw [Dict.get?_insert, if_neg hinit, hroot]

theorem get?_entryIf {present : Bool} {key : String} {v : Json}
    (hkey : key ∈ catalogKeys) (hinit : key ≠ "initDataList")
    (h : ∀ w, (key, w) ∈ c.rootEntries ↔ present = true ∧ w = v) :
    c.toDict.get? key = if present then some v else none := by
  rw [c.get?_toDict hkey hinit]
  apply Option.ext
  intro w
  rw [get?_entries c.rootEntries_nodup, h]
  cases present <;> simp [eq_comm]

theorem get?_version : c.toDict.get? "version" =
    if !c.isDelta && c.version ≠ .null then some c.version else none :=
  c.get?_entryIf (by decide) (by decide) fun w => by simp [rootEntries, mem_entryIf]

theorem get?_generatedAt : c.toDict.get? "generatedAt" =
    if c.generatedAt ≠ .null then some c.generatedAt else none := by
  have h : c.toDict.get? "generatedAt" =
      if decide (c.generatedAt ≠ .null) then some c.generatedAt else none :=
    c.get?_entryIf (by decide) (by decide) fun w => by simp [rootEntries, mem_entryIf]
  simpa using h

theorem get?_isComplete : c.toDict.get? "isComplete" =
    if c.isComplete then some (.bool true) else none :=
  c.get?_entryIf (by decide) (by decide) fun w => by simp [rootEntries, mem_entryIf]

theorem get?_tracks : c.toDict.get? "tracks" =
    if !c.isDelta then some (writeTracks c.tracks) else none :=
  c.get?_entryIf (by decide) (by decide) fun w => by simp [rootEntries, mem_entryIf]

theorem get?_publishTracks : c.toDict.get? "publishTracks" = c.publishTracks.map writeTracks := by
  have h : c.toDict.get? "publishTracks" =
      if c.publishTracks.isSome then some (writeTracks (c.publishTracks.getD [])) else none :=
    c.get?_entryIf (by decide) (by decide) fun w => by simp [rootEntries, mem_entryIf]
  rw [h]
  cases c.publishTracks <;> rfl

theorem get?_deltaUpdate : c.toDict.get? "deltaUpdate" =
    if c.isDelta then some (.arr (c.deltaUpdate.map fun op => .ofDict op.toDict)) else none :=
  c.get?_entryIf (by decide) (by decide) fun w => by simp [rootEntries, mem_entryIf]

theorem get?_initDataList : c.toDict.get? "initDataList" =
    c.initDataList.map fun inits => .arr (inits.map fun init => .ofDict init.toDict) := by
  have hextra : c.extra.get? "initDataList" = none :=
    Dict.get?_eq_none fun hmem => c.custom _ hmem (by decide)
  have hroot : (Dict.ofEntries c.rootEntries).get? "initDataList" = none := by
    apply Option.ext
    intro w
    rw [get?_entries c.rootEntries_nodup]
    simp [rootEntries, mem_entryIf]
  rw [toDict]
  cases c.initDataList with
  | none =>
      simp only []
      rw [Dict.get?_update, hextra, hroot]
      rfl
  | some inits =>
      simp only []
      rw [Dict.get?_insert, if_pos rfl]
      rfl

theorem extra_toDict : (c.toDict.filterKeys fun key => key ∉ catalogKeys) = c.extra := by
  have hkept : ∀ key ∈ c.extra.keys, decide (key ∉ catalogKeys) = true := by
    intro key hkey
    exact decide_eq_true (c.custom key hkey)
  have hnone : ((Dict.ofEntries c.rootEntries).filterKeys fun key => key ∉ catalogKeys) = .empty := by
    apply Dict.ext
    show (Dict.ofEntries c.rootEntries).entries.filter _ = []
    rw [List.filter_eq_nil_iff]
    intro entry hentry
    have hroot : entry ∈ c.rootEntries := by
      have hget := Dict.get?_eq_some.mpr hentry
      exact (get?_entries c.rootEntries_nodup).mp hget
    simpa using c.rootEntries_known hroot
  have hroot : (((Dict.ofEntries c.rootEntries).update c.extra).filterKeys
      fun key => key ∉ catalogKeys) = c.extra := by
    rw [Dict.filterKeys_update hkept, hnone, Dict.empty_update]
  rw [toDict]
  cases c.initDataList with
  | none => exact hroot
  | some inits =>
      simp only []
      rw [Dict.filterKeys_insert, if_neg (by decide), hroot]

theorem truthy_deltaUpdate : (field c.toDict "deltaUpdate").truthy = c.isDelta := by
  rw [field, get?_deltaUpdate]
  cases hdelta : c.isDelta with
  | false => rfl
  | true =>
      rw [if_pos rfl, Option.getD_some, Json.truthy_arr]
      simpa [isDelta] using hdelta

theorem readOps_toDict : readOps c.toDict = .ok c.deltaUpdate := by
  rw [readOps, truthy_deltaUpdate]
  cases hdelta : c.isDelta with
  | false =>
      have hnil : c.deltaUpdate = [] := by simpa [isDelta] using hdelta
      rw [hnil]
      rfl
  | true =>
      rw [if_pos rfl, field, get?_deltaUpdate, hdelta]
      exact readList_write DeltaOp.fromDict_toDict c.deltaUpdate

theorem readVersion_toDict (h : c.Readable) :
    normalizeVersion (field c.toDict "version") = c.written.version := by
  rw [field, get?_version, written]
  cases hdelta : c.isDelta with
  | true => rfl
  | false =>
      have hversion : c.version ∈ msfVersions := h.resolve_left (by simp [hdelta])
      obtain hone | hdraft : c.version = .str "1" ∨ c.version = .str "draft-01" := by
        simpa [msfVersions] using hversion
      · simp [hone, normalizeVersion]
      · simp [hdraft, normalizeVersion]

theorem checkVersion_toDict (h : c.Readable) : checkVersion c.toDict = .ok () := by
  rw [checkVersion, truthy_deltaUpdate, readVersion_toDict c h, written]
  cases hdelta : c.isDelta with
  | true => rfl
  | false =>
      have hversion : c.version ∈ msfVersions := h.resolve_left (by simp [hdelta])
      simp [hversion]

theorem readTracks_toDict :
    readTracks ((c.toDict.get? "tracks").getD (.arr [])) = .ok c.written.tracks := by
  rw [get?_tracks, written]
  cases hdelta : c.isDelta with
  | true => rfl
  | false => exact readTracks_write c.tracks

/-- A catalog is read back as it was written. -/
theorem fromJson_toJson (h : c.Readable) : fromJson c.toJson = .ok c.written := by
  have hpublish : readOptional readTracks c.toDict "publishTracks" = .ok c.publishTracks := by
    rw [readOptional, get?_publishTracks]
    cases c.publishTracks with
    | none => rfl
    | some tracks =>
        simp only [Option.map_some, readTracks_write]
        rfl
  have hinit : readOptional (readList InitData.fromDict) c.toDict "initDataList" =
      .ok c.initDataList := by
    rw [readOptional, get?_initDataList]
    cases c.initDataList with
    | none => rfl
    | some inits =>
        simp only [Option.map_some, readList_write InitData.fromDict_toDict]
        rfl
  have hgenerated : field c.toDict "generatedAt" = c.generatedAt := by
    rw [field, get?_generatedAt]
    by_cases hnull : c.generatedAt = .null <;> simp [hnull]
  have hcomplete : (field c.toDict "isComplete").truthy = c.isComplete := by
    rw [field, get?_isComplete]
    cases c.isComplete <;> rfl
  rw [toJson, fromJson, Json.dict?_ofDict]
  simp only [fromDict, checkVersion_toDict c h, readTracks_toDict, hpublish, readOps_toDict, hinit,
    readVersion_toDict c h, hgenerated, hcomplete]
  refine congrArg Except.ok (Catalog.ext rfl ?_ ?_ rfl ?_ ?_ ?_ ?_) <;>
    simp only [written] <;> cases c.isDelta <;> first | rfl | exact c.extra_toDict

/-! ## Deltas -/

/-- What a delta does is in its operations, its time and its init data. -/
theorem apply_written (update : Catalog) : c.apply update.written = c.apply update := by
  rw [written]
  split <;> rfl

theorem written_of_independent (h : c.isDelta = false) : c.written = c := by
  rw [written, h]
  rfl

theorem written_isDelta : c.written.isDelta = c.isDelta := by
  rw [written]
  split <;> rfl

end Catalog

theorem catalogUpdates_independent {update : Catalog} (h : update.isDelta = false) :
    catalogUpdates.full update = some update := by
  simp [catalogUpdates, h]

theorem catalogUpdates_delta {update : Catalog} (h : update.isDelta = true) :
    catalogUpdates.full update = none := by
  simp [catalogUpdates, h]

end AioMoqt.Media
