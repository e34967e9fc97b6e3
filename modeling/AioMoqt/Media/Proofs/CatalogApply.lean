import AioMoqt.Lib.InPlace
import AioMoqt.Media.Catalog
import Mathlib.Data.List.Nodup

/-!
# Deltas: all or nothing, and one track a key

The operations of a delta change the tracks in place.  An update may give its track the key of
another, and no later operation can tell the two apart again.
-/

namespace AioMoqt.Media.Catalog

open AioMoqt.Lib

/-- One operation is taken up, or goes to one of its tracks. -/
abbrev DeltaStep : Type := Json × Option CatalogTrack

/-- The steps of a delta. -/
def stepsOf (ops : List DeltaOp) : List DeltaStep :=
  ops.flatMap fun op => (op.op, none) :: op.tracks.map fun t => (op.op, some t)

/-- One step, against the result of the steps before. -/
def applyStep (tracks : List CatalogTrack) (step : DeltaStep) :
    Except CatalogError (List CatalogTrack) :=
  match handler step.1 with
  | none => .error (.unknownOp step.1)
  | some handle => match step.2 with
    | none => .ok tracks
    | some t => handle tracks t

theorem runTracks_eq {op : Json}
    {handle : List CatalogTrack → CatalogTrack → Except CatalogError (List CatalogTrack)}
    (h : handler op = some handle) (tracks ts : List CatalogTrack) :
    runTracks handle tracks ts =
      InPlace.run applyStep tracks (ts.map fun t => (op, some t)) := by
  induction ts generalizing tracks with
  | nil => rfl
  | cons t ts ih =>
      simp only [runTracks, List.map_cons, InPlace.run, applyStep, h]
      cases handle tracks t with
      | error e => rfl
      | ok tracks => exact ih tracks

/-- The operations are their steps in place. -/
theorem runOps_eq (tracks : List CatalogTrack) (ops : List DeltaOp) :
    runOps tracks ops = InPlace.run applyStep tracks (stepsOf ops) := by
  induction ops generalizing tracks with
  | nil => rfl
  | cons op ops ih =>
      simp only [runOps, stepsOf, List.flatMap_cons, List.cons_append, InPlace.run, applyStep]
      cases hop : handler op.op with
      | none => rfl
      | some handle =>
          simp only [runTracks_eq hop, InPlace.run_append]
          rcases InPlace.run applyStep tracks (op.tracks.map fun t => (op.op, some t)) with
            ⟨tracks', _ | e⟩
          · exact ih tracks'
          · rfl

/-! ## What a name finds -/

/-- Whether `find` takes a track. -/
def named (name ns : Json) (t : CatalogTrack) : Bool :=
  t.attr .name = name ∧ (ns = .null ∨ t.attr .namespace = ns)

/-- Whether `find` has one track. -/
def single (tracks : List CatalogTrack) (name ns : Json) : Bool :=
  (tracks.filter (named name ns)).length = 1

theorem named_congr {name ns : Json} {t u : CatalogTrack} (h : t.key = u.key) :
    named name ns t = named name ns u := by
  obtain ⟨hns, hname⟩ := Prod.mk.inj h
  simp only [named, hns, hname]

theorem single_iff {tracks : List CatalogTrack} {name ns : Json} :
    single tracks name ns ↔ ∃ found, tracks.filter (named name ns) = [found] := by
  rw [single, decide_eq_true_eq, List.length_eq_one_iff]

theorem find_eq (tracks : List CatalogTrack) (name ns : Json) :
    find tracks name ns = match tracks.filter (named name ns) with
      | [] => .ok none
      | [t] => .ok (some t)
      | _ => .error (.ambiguous name) := rfl

theorem find_single {tracks : List CatalogTrack} {name ns : Json} {found : CatalogTrack}
    (h : tracks.filter (named name ns) = [found]) : find tracks name ns = .ok (some found) := by
  rw [find_eq, h]

/-- Without one track `find` has none, or cannot tell. -/
theorem find_of_not_single {tracks : List CatalogTrack} {name ns : Json}
    (h : single tracks name ns = false) :
    find tracks name ns = .ok none ∨ find tracks name ns = .error (.ambiguous name) := by
  rw [find_eq]
  unfold single at h
  match hmatch : tracks.filter (named name ns) with
  | [] => exact .inl rfl
  | [t] => simp [hmatch] at h
  | _ :: _ :: _ => exact .inr rfl

/-- The one track that a name finds is the only one of its key. -/
theorem split_of_single {tracks : List CatalogTrack} {name ns : Json} {found : CatalogTrack}
    (h : tracks.filter (named name ns) = [found]) :
    ∃ left right, tracks = left ++ found :: right ∧
      found.key ∉ (left ++ right).map CatalogTrack.key := by
  obtain ⟨left, right, rfl, hleft, hfound, hright⟩ := List.filter_eq_cons_iff.mp h
  refine ⟨left, right, rfl, fun hmem => ?_⟩
  obtain ⟨x, hx, hkey⟩ := List.mem_map.mp hmem
  rw [← named_congr hkey] at hfound
  rcases List.mem_append.mp hx with hx | hx
  · exact hleft x hx hfound
  · exact List.filter_eq_nil_iff.mp hright x hx hfound

/-! ## Keys -/

/-- Pairwise distinct (namespace, name) keys. -/
def Distinct (tracks : List CatalogTrack) : Prop := (tracks.map CatalogTrack.key).Nodup

instance (tracks : List CatalogTrack) : Decidable (Distinct tracks) :=
  inferInstanceAs (Decidable (List.Nodup _))

theorem distinct_append {tracks : List CatalogTrack} {t : CatalogTrack} :
    Distinct (tracks ++ [t]) ↔ Distinct tracks ∧ ¬ ∃ x ∈ tracks, x.key = t.key := by
  simp only [Distinct, List.map_append, List.map_cons, List.map_nil, List.nodup_append,
    List.nodup_singleton, true_and, List.mem_map, List.mem_singleton]
  grind

theorem distinct_middle {left right : List CatalogTrack} {t : CatalogTrack} :
    Distinct (left ++ t :: right) ↔
      t.key ∉ (left ++ right).map CatalogTrack.key ∧ Distinct (left ++ right) := by
  simp only [Distinct, List.map_append, List.map_cons, List.nodup_middle, List.nodup_cons]

/-- The track behind `found` in the place of `found`. -/
theorem set_idxOf {left right : List CatalogTrack} {found : CatalogTrack} (merged : CatalogTrack)
    (h : found.key ∉ (left ++ right).map CatalogTrack.key) :
    (left ++ found :: right).set ((left ++ found :: right).idxOf found) merged =
      left ++ merged :: right := by
  have hleft : found ∉ left := fun hmem =>
    h (List.mem_map_of_mem (List.mem_append_left _ hmem))
  rw [List.idxOf_append_of_notMem hleft, List.idxOf_cons_self,
    Nat.add_zero, List.set_append_right _ _ le_rfl]
  simp

theorem erase_found {left right : List CatalogTrack} {found : CatalogTrack}
    (h : found.key ∉ (left ++ right).map CatalogTrack.key) :
    (left ++ found :: right).erase found = left ++ right := by
  have hleft : found ∉ left := fun hmem =>
    h (List.mem_map_of_mem (List.mem_append_left _ hmem))
  rw [List.erase_append_right _ hleft, List.erase_cons_head]

/-! ## What fails, and what collides -/

/-- The name and namespace an update goes by. -/
def updateTarget (t : CatalogTrack) : Json × Json :=
  if (t.attr .parentName).truthy then (t.attr .parentName, t.attr .parentNamespace)
  else (t.attr .name, t.attr .namespace)

/-- Whether a key is declared. -/
def declared (tracks : List CatalogTrack) (key : Json × Json) : Bool :=
  key ∈ tracks.map CatalogTrack.key

theorem declared_iff {tracks : List CatalogTrack} {key : Json × Json} :
    declared tracks key = true ↔ ∃ x ∈ tracks, x.key = key := by
  rw [declared, decide_eq_true_eq, List.mem_map]

theorem declared_eq_false {tracks : List CatalogTrack} {key : Json × Json}
    (h : ¬ ∃ x ∈ tracks, x.key = key) : declared tracks key = false := by
  rwa [← Bool.not_eq_true, declared_iff]

/-- Whether a step is refused. -/
def refused (tracks : List CatalogTrack) : DeltaStep → Bool
  | (op, none) => (handler op).isNone
  | (op, some t) =>
      if op = .str "add" then !(t.attr .name).truthy || declared tracks t.key
      else if op = .str "remove" then !single tracks (t.attr .name) (t.attr .namespace)
      else if op = .str "clone" then
        !(t.attr .parentName).truthy ||
        !single tracks (t.attr .parentName) (t.attr .parentNamespace) ||
        !(t.attr .name).truthy ||
        (tracks.filter (named (t.attr .parentName) (t.attr .parentNamespace))).any
          fun parent => declared tracks (merge parent t).key
      else if op = .str "update" then
        !(updateTarget t).1.truthy || !single tracks (updateTarget t).1 (updateTarget t).2
      else true

/-- Whether a step is an update that gives its track the key of another. -/
def collides (tracks : List CatalogTrack) : DeltaStep → Bool
  | (_, none) => false
  | (op, some t) =>
      op = .str "update" && (updateTarget t).1.truthy &&
      single tracks (updateTarget t).1 (updateTarget t).2 &&
      (tracks.filter (named (updateTarget t).1 (updateTarget t).2)).any fun found =>
        declared (tracks.erase found) (merge found t).key

/-- What a step comes to: a refusal, or tracks that are distinct as before unless it collides. -/
def Accounted (tracks : List CatalogTrack) (step : DeltaStep) :
    Except CatalogError (List CatalogTrack) → Prop
  | .error _ => refused tracks step = true
  | .ok tracks' => refused tracks step = false ∧
      (Distinct tracks' ↔ Distinct tracks ∧ collides tracks step = false)

theorem opAdd_accounted (tracks : List CatalogTrack) (t : CatalogTrack) :
    Accounted tracks (.str "add", some t) (opAdd tracks t) := by
  unfold opAdd
  split
  · rename_i hname
    simp [Accounted, refused, hname]
  · rename_i hname
    split
    · rename_i hmem
      simp [Accounted, refused, declared_iff.mpr hmem]
    · rename_i hmem
      refine ⟨by simpa [refused, declared_eq_false hmem] using hname, ?_⟩
      rw [distinct_append]
      simp [collides, hmem]

theorem opRemove_accounted (tracks : List CatalogTrack) (t : CatalogTrack) :
    Accounted tracks (.str "remove", some t) (opRemove tracks t) := by
  cases hsingle : single tracks (t.attr .name) (t.attr .namespace) with
  | false =>
      unfold opRemove
      rcases find_of_not_single hsingle with h | h <;> rw [h] <;>
        simp [Accounted, refused, hsingle, bind, Except.bind]
  | true =>
      obtain ⟨found, hfound⟩ := single_iff.mp hsingle
      obtain ⟨left, right, rfl, hkey⟩ := split_of_single hfound
      unfold opRemove
      rw [find_single hfound]
      refine ⟨by simp [refused, hsingle], ?_⟩
      rw [erase_found hkey, distinct_middle, and_iff_right hkey]
      simp [collides]

/-- `_op_update`, of its target. -/
theorem opUpdate_eq (tracks : List CatalogTrack) (t : CatalogTrack) :
    opUpdate tracks t =
      if !(updateTarget t).1.truthy then .error .updateUnnamed
      else (find tracks (updateTarget t).1 (updateTarget t).2).bind fun
        | none => .error (.updateUnknown ((updateTarget t).2, (updateTarget t).1))
        | some found => .ok (tracks.set (tracks.idxOf found) (merge found t)) := by
  unfold opUpdate updateTarget
  cases (t.attr .parentName).truthy <;> rfl

theorem opUpdate_accounted (tracks : List CatalogTrack) (t : CatalogTrack) :
    Accounted tracks (.str "update", some t) (opUpdate tracks t) := by
  rw [opUpdate_eq]
  cases hname : (updateTarget t).1.truthy with
  | false => simp [Accounted, refused, hname]
  | true =>
      cases hsingle : single tracks (updateTarget t).1 (updateTarget t).2 with
      | false =>
          rcases find_of_not_single hsingle with h | h <;> rw [h] <;>
            simp [Accounted, refused, hsingle, Except.bind]
      | true =>
          obtain ⟨found, hfound⟩ := single_iff.mp hsingle
          have hcollides : collides tracks (.str "update", some t) =
              declared (tracks.erase found) (merge found t).key := by
            simp [collides, hname, hsingle, hfound]
          obtain ⟨left, right, rfl, hkey⟩ := split_of_single hfound
          rw [find_single hfound]
          refine ⟨by simp [refused, hname, hsingle], ?_⟩
          rw [set_idxOf _ hkey, hcollides, erase_found hkey, distinct_middle, distinct_middle,
            declared, decide_eq_false_iff_not]
          grind

theorem opClone_accounted (tracks : List CatalogTrack) (t : CatalogTrack) :
    Accounted tracks (.str "clone", some t) (opClone tracks t) := by
  unfold opClone
  cases hparent : (t.attr .parentName).truthy with
  | false => simp [Accounted, refused, hparent]
  | true =>
      cases hsingle : single tracks (t.attr .parentName) (t.attr .parentNamespace) with
      | false =>
          rcases find_of_not_single hsingle with h | h <;> rw [h] <;>
            simp [Accounted, refused, hsingle, bind, Except.bind]
      | true =>
          obtain ⟨parent, hfound⟩ := single_iff.mp hsingle
          have hmem : parent ∈ tracks :=
            List.mem_of_mem_filter (by rw [hfound]; exact List.mem_singleton_self parent)
          have hrefused : refused tracks (.str "clone", some t) =
              (!(t.attr .name).truthy || declared tracks (merge parent t).key) := by
            simp [refused, hparent, hsingle, hfound]
          rw [find_single hfound]
          simp only [bind, Except.bind, Bool.not_true, Bool.false_eq_true, if_false]
          split
          · rename_i hbad
            rw [Accounted, hrefused]
            rcases hbad with hname | hsame
            · simp [hname]
            · simp [declared_iff.mpr ⟨parent, hmem, hsame.symm⟩]
          · rename_i hgood
            split
            · rename_i hused
              simp [Accounted, hrefused, declared_iff.mpr hused]
            · rename_i hused
              have hname : (!(t.attr .name).truthy) = false :=
                Bool.not_eq_true _ ▸ fun h => hgood (.inl h)
              refine ⟨by rw [hrefused, hname, declared_eq_false hused]; rfl, ?_⟩
              rw [distinct_append]
              simp [collides, hused]

theorem applyStep_accounted (tracks : List CatalogTrack) (step : DeltaStep) :
    Accounted tracks step (applyStep tracks step) := by
  obtain ⟨op, none | t⟩ := step
  · unfold applyStep
    cases hop : handler op with
    | none => simp [Accounted, refused, hop]
    | some handle => simp [Accounted, refused, collides, hop]
  · by_cases hadd : op = .str "add"
    · subst hadd
      simpa [applyStep, handler] using opAdd_accounted tracks t
    by_cases hremove : op = .str "remove"
    · subst hremove
      simpa [applyStep, handler] using opRemove_accounted tracks t
    by_cases hclone : op = .str "clone"
    · subst hclone
      simpa [applyStep, handler] using opClone_accounted tracks t
    by_cases hupdate : op = .str "update"
    · subst hupdate
      simpa [applyStep, handler] using opUpdate_accounted tracks t
    simp [applyStep, handler, Accounted, refused, hadd, hremove, hclone, hupdate]

/-! ## Deltas -/

/-- What a subscriber counts on: a delta is taken whole and its tracks have keys of their own, or
it is refused and the catalog is as it was. -/
def Atomic (c update : Catalog) : Prop :=
  match c.apply update with
  | (c', none) =>
      (stepsOf update.deltaUpdate).foldlM applyStep c.tracks = .ok c'.tracks ∧ Distinct c'.tracks
  | (c', some _) =>
      c'.tracks = c.tracks ∧ c'.generatedAt = c.generatedAt ∧ c'.initDataList = c.initDataList

theorem Atomic.distinct {c update : Catalog} (h : Atomic c update)
    (hok : (c.apply update).2 = none) : Distinct (c.apply update).1.tracks := by
  unfold Atomic at h
  generalize c.apply update = after at h hok ⊢
  obtain ⟨c', _ | e⟩ := after
  · exact h.2
  · cases hok

theorem Atomic.unchanged {c update : Catalog} {e : CatalogError} (h : Atomic c update)
    (herr : (c.apply update).2 = some e) : (c.apply update).1.tracks = c.tracks := by
  unfold Atomic at h
  generalize c.apply update = after at h herr ⊢
  obtain ⟨c', _ | e'⟩ := after
  · cases herr
  · exact h.1

/-- No operation of a delta is refused behind a change of the tracks, and no update gives its track
the key of another. -/
def Undivided (c update : Catalog) : Prop :=
  ∀ p ∈ InPlace.tried applyStep c.tracks (stepsOf update.deltaUpdate),
    (refused p.1 p.2 = true → p.1 = c.tracks) ∧ ¬ collides p.1 p.2 = true

instance (c update : Catalog) : Decidable (Undivided c update) :=
  inferInstanceAs (Decidable (∀ p ∈ _, _))

theorem kept_undivided (c update : Catalog) (hdistinct : Distinct c.tracks) :
    InPlace.Kept Distinct c.tracks
        (InPlace.run applyStep c.tracks (stepsOf update.deltaUpdate)) ↔ Undivided c update := by
  refine @InPlace.kept_iff _ _ _ applyStep Distinct (fun tracks step => refused tracks step = true)
    (fun tracks step => collides tracks step = true) (fun tracks step => ?_)
    (fun {tracks step tracks'} h => ?_) (fun {tracks step} h => ?_) _ hdistinct _
  · have hspec := applyStep_accounted tracks step
    cases hstep : applyStep tracks step with
    | error e => simpa [hstep, Accounted] using hspec
    | ok tracks' =>
        rw [hstep] at hspec
        simp [hspec.1]
  · have hspec := applyStep_accounted tracks step
    rw [h] at hspec
    rw [hspec.2, Bool.not_eq_true]
  · obtain ⟨op, none | t⟩ := step
    · simp [collides] at h
    · simp only [collides, Bool.and_eq_true, decide_eq_true_eq] at h
      obtain ⟨⟨⟨rfl, hname⟩, hsingle⟩, -⟩ := h
      simp [refused, hname, hsingle]

/-- **A delta is all or nothing**, with one track a key, iff it is undivided. -/
theorem apply_atomic_iff (c update : Catalog) (hdistinct : Distinct c.tracks) :
    Atomic c update ↔ Undivided c update := by
  rw [← kept_undivided c update hdistinct]
  have hvalue := InPlace.run_eq_none applyStep c.tracks (stepsOf update.deltaUpdate)
  unfold Atomic apply isDelta
  cases hops : update.deltaUpdate with
  | nil => simp [InPlace.run, InPlace.Kept, stepsOf, hdistinct]
  | cons op ops =>
      rw [hops] at hvalue
      simp only [List.isEmpty_cons, Bool.not_false, Bool.not_true, Bool.false_eq_true, if_false,
        runOps_eq]
      generalize InPlace.run applyStep c.tracks (stepsOf (op :: ops)) = r at hvalue ⊢
      obtain ⟨tracks, none | e⟩ := r
      · simp [InPlace.Kept, hvalue.mp rfl]
      · simp [InPlace.Kept]

theorem custom_empty : ∀ key ∈ (Dict.empty : Dict String Json).keys, key ∉ catalogKeys :=
  fun _ hkey => absurd hkey List.not_mem_nil

/-- A catalog of two tracks. -/
def twoTracks : Catalog where
  tracks := [.ofAttrs [(.name, .str "video")], .ofAttrs [(.name, .str "audio")]]
  custom := custom_empty

/-- A delta that clones a track and then lets the parent go. -/
def cloning : Catalog where
  deltaUpdate :=
    [{ op := .str "clone"
       tracks := [.ofAttrs [(.parentName, .str "video"), (.name, .str "video-low")]] },
      { op := .str "remove", tracks := [.ofAttrs [(.name, .str "video")]] }]
  custom := custom_empty

theorem apply_atomic_cloning : Atomic twoTracks cloning :=
  (apply_atomic_iff twoTracks cloning (by decide +kernel)).mpr (by decide +kernel)

/-- A delta that renames a track to the name of another. -/
def colliding : Catalog where
  deltaUpdate :=
    [{ op := .str "update"
       tracks := [.ofAttrs [(.parentName, .str "audio"), (.name, .str "video")]] }]
  custom := custom_empty

/-- A delta that is refused behind its first operation. -/
def halfway : Catalog where
  deltaUpdate :=
    [{ op := .str "add", tracks := [.ofAttrs [(.name, .str "captions")]] },
      { op := .str "remove", tracks := [.ofAttrs [(.name, .str "subtitles")]] }]
  custom := custom_empty

/-- The first leaves two tracks of one key, the second a track that the refused delta added. -/
theorem apply_divided : Distinct twoTracks.tracks ∧
    ((twoTracks.apply colliding).2 = none ∧ ¬ Distinct (twoTracks.apply colliding).1.tracks) ∧
    ((twoTracks.apply halfway).2 = some (.removeUnknown (.null, .str "subtitles")) ∧
      (twoTracks.apply halfway).1.tracks.length = 3) ∧
    ¬ Atomic twoTracks colliding ∧ ¬ Atomic twoTracks halfway := by
  have hcolliding : (twoTracks.apply colliding).2 = none ∧
      ¬ Distinct (twoTracks.apply colliding).1.tracks := by decide +kernel
  have hhalfway : (twoTracks.apply halfway).2 = some (.removeUnknown (.null, .str "subtitles")) ∧
      (twoTracks.apply halfway).1.tracks.length = 3 := by decide +kernel
  refine ⟨by decide +kernel, hcolliding, hhalfway, fun h => ?_, fun h => ?_⟩
  · exact hcolliding.2 (h.distinct hcolliding.1)
  · have hlen := congrArg List.length (h.unchanged hhalfway.1)
    rw [hhalfway.2] at hlen
    exact absurd hlen (by decide)

end AioMoqt.Media.Catalog
