import AioMoqt.Delivery.Proofs.History
import Mathlib.Data.List.Dedup

/-!
# Answering FETCH from the history

A Location that was added is reported as lost or answered with the object first added
there, unless the marker of what is lost is clipped to a smaller Location of its group.
-/

namespace AioMoqt.Delivery

open AioMoqt.Lib AioMoqt.Messages

variable {σ : Type}

variable {h : ObjectHistory σ} {adds : List (Added σ)} {start stop loc : Location}

namespace ObjectHistory

/-! ## What is held in a range -/

/-- The records of one group. -/
def heldOf (entry : Nat × HeldGroup σ) (start stop : Location) : List (Location × Record σ × Nat) :=
  (entry.2.held.map fun slot =>
    (Location.mk entry.1 slot.1.objectId, slot.1, entry.2.priorityOf slot.2)).filter
      fun rec => start ≤ rec.1 ∧ rec.1 ≤ stop

theorem held_eq (h : ObjectHistory σ) (start stop : Location) :
    h.held start stop = (h.groups.entries.filter fun entry =>
      start.group ≤ entry.1 ∧ entry.1 ≤ stop.group).flatMap fun entry => heldOf entry start stop :=
  rfl

theorem findSome?_filter {α β : Type} (xs : List α) (p : α → Prop) [DecidablePred p]
    (f : α → Option β) :
    (xs.filter fun x => p x).findSome? f = xs.findSome? fun x => if p x then f x else none := by
  induction xs with
  | nil => rfl
  | cons x xs ih =>
      rw [List.findSome?_cons, List.filter_cons]
      by_cases hx : p x
      · simp [hx, ih, List.findSome?_cons]
      · simp [hx, ih]

theorem find?_heldOf (grp : HeldGroup σ) (start stop loc : Location) :
    (heldOf (loc.group, grp) start stop).find? (·.1 = loc) =
      if start ≤ loc ∧ loc ≤ stop then
        (grp.entries.find? (·.1.objectId = loc.object)).map fun entry => (loc, entry.1, entry.2)
      else none := by
  have hsame : ∀ slot : Record σ × Nat,
      Location.mk loc.group slot.1.objectId = loc ↔ slot.1.objectId = loc.object := by
    intro slot
    constructor
    · intro heq
      exact congrArg Location.object heq
    · intro heq
      rw [heq, Location.mk_eta]
  unfold heldOf HeldGroup.entries
  rw [List.find?_filter]
  induction grp.held with
  | nil => simp
  | cons slot slots ih =>
      rw [List.map_cons, List.find?_cons, ih, List.map_cons, List.find?_cons]
      by_cases hid : slot.1.objectId = loc.object
      · have hloc := (hsame slot).mpr hid
        by_cases hrange : start ≤ loc ∧ loc ≤ stop
        · simp [hid, hrange]
        · simp [hloc, hrange]
      · have hloc : Location.mk loc.group slot.1.objectId ≠ loc := fun heq => hid ((hsame slot).mp heq)
        simp [hloc, hid]

/-- The record that answers for a Location. -/
theorem find?_held (h : ObjectHistory σ) (start stop loc : Location) :
    (h.held start stop).find? (·.1 = loc) =
      if start ≤ loc ∧ loc ≤ stop then
        ((h.entriesOf loc.group).find? (·.1.objectId = loc.object)).map fun entry =>
          (loc, entry.1, entry.2)
      else none := by
  have hother : ∀ entry ∈ h.groups.entries, entry.1 ≠ loc.group →
      (if start.group ≤ entry.1 ∧ entry.1 ≤ stop.group then
        (heldOf entry start stop).find? (·.1 = loc) else none) = none := by
    intro entry _ hne
    split
    · rw [List.find?_eq_none]
      intro rec hrec
      obtain ⟨slot, -, rfl⟩ := List.mem_map.mp (List.mem_of_mem_filter hrec)
      simp only [decide_eq_true_eq]
      rintro rfl
      exact hne rfl
    · rfl
  rw [held_eq, List.find?_flatMap, findSome?_filter, Dict.findSome?_key _ loc.group _ hother,
    entriesOf]
  cases hget : h.groups.get? loc.group with
  | none => simp
  | some grp =>
      rw [Option.bind_some, Option.elim_some, find?_heldOf]
      by_cases hrange : start ≤ loc ∧ loc ≤ stop
      · have hgroups : start.group ≤ loc.group ∧ loc.group ≤ stop.group := by
          have hstart := Location.le_iff.mp hrange.1
          have hstop := Location.le_iff.mp hrange.2
          omega
        rw [if_pos hgroups]
      · rw [if_neg hrange, ite_self]

/-- A Location that is not lost is answered by what was first added there. -/
theorem Keeps.first (hkeeps : h.Keeps adds) (hnot : ¬ h.Lost loc) :
    (h.entriesOf loc.group).find? (·.1.objectId = loc.object) =
      (adds.find? (·.location = loc)).map Added.entry := by
  obtain ⟨dropped, hadds, hlost⟩ := hkeeps.kept loc.group
  have hdropped : dropped.find? (·.1.objectId = loc.object) = none := by
    rw [List.find?_eq_none]
    intro entry hentry
    simp only [decide_eq_true_eq]
    intro hid
    apply hnot
    rw [← Location.mk_eta loc, ← hid]
    exact hlost entry hentry
  have hfind := congrArg (List.find? (·.1.objectId = loc.object)) hadds
  rw [List.find?_append, hdropped, Option.none_or, List.find?_map, List.find?_filter] at hfind
  rw [← hfind]
  congr 2
  funext obj
  simp only [Function.comp_apply, decide_eq_true_eq, decide_eq_decide]
  constructor
  · rintro ⟨hgroup, hobject⟩
    rw [Added.location, hgroup, show obj.objectId = loc.object from hobject, Location.mk_eta]
  · rintro rfl
    exact ⟨rfl, rfl⟩

/-- No object held of a group is above its last. -/
theorem le_lastObject (fallback : Nat) {group : Nat} {entry : Record σ × Nat}
    (hentry : entry ∈ h.entriesOf group) :
    entry.1.objectId ≤ (h.lastObject group).getD fallback := by
  unfold entriesOf at hentry
  unfold lastObject
  cases hget : h.groups.get? group with
  | none =>
      rw [hget] at hentry
      cases hentry
  | some grp =>
      rw [hget, Option.elim_some] at hentry
      rw [Option.map_some, Option.getD_some]
      exact HeldGroup.le_largest (Or.inl (HeldGroup.mem_ids hentry))

/-! ## The answer -/

theorem precedes_trans {descending : Bool} {a b c : Location}
    (hab : Precedes descending a b) (hbc : Precedes descending b c) : Precedes descending a c := by
  unfold Precedes at hab hbc ⊢
  split at hab <;> simp_all only [Bool.false_eq_true, if_true, if_false, Location.le_iff] <;> omega

theorem precedes_total (descending : Bool) (a b : Location) :
    Precedes descending a b ∨ Precedes descending b a := by
  unfold Precedes
  split
  · omega
  · exact le_total a b

theorem keys_sorted (descending : Bool) (held : List (Location × Record σ × Nat)) :
    (keys descending held).Pairwise (Precedes descending) := by
  have : Std.Total (Precedes descending) := ⟨precedes_total descending⟩
  have : IsTrans Location (Precedes descending) := ⟨fun _ _ _ => precedes_trans⟩
  exact List.pairwise_insertionSort _ _

theorem keys_nodup (descending : Bool) (held : List (Location × Record σ × Nat)) :
    (keys descending held).Nodup :=
  ((List.perm_insertionSort _ _).nodup_iff).mpr (List.nodup_dedup _)

theorem mem_keys {descending : Bool} {held : List (Location × Record σ × Nat)} :
    loc ∈ keys descending held ↔ ∃ entry, held.find? (·.1 = loc) = some entry := by
  unfold keys
  rw [List.mem_insertionSort, List.mem_dedup, ← Option.isSome_iff_exists, List.find?_isSome,
    List.mem_map]
  simp

/-- The objects of an answer. -/
theorem mem_fetchObjects {session : σ} {descending : Bool} {obj : FetchObject} :
    obj ∈ fetchObjects session descending (h.held start stop) ↔
      ∃ loc entry, (start ≤ loc ∧ loc ≤ stop) ∧
        (h.entriesOf loc.group).find? (·.1.objectId = loc.object) = some entry ∧
        obj = fetchObject session loc entry.1 entry.2 := by
  unfold fetchObjects
  rw [List.mem_filterMap]
  constructor
  · rintro ⟨loc, -, hobj⟩
    rw [find?_held] at hobj
    split at hobj
    next hrange =>
        rw [Option.map_map, Option.map_eq_some_iff] at hobj
        obtain ⟨entry, hentry, rfl⟩ := hobj
        exact ⟨loc, entry, hrange, hentry, rfl⟩
    · cases hobj
  · rintro ⟨loc, entry, hrange, hentry, rfl⟩
    have hfind : (h.held start stop).find? (·.1 = loc) = some (loc, entry.1, entry.2) := by
      rw [find?_held, if_pos hrange, hentry]
      rfl
    refine ⟨loc, mem_keys.mpr ⟨_, hfind⟩, ?_⟩
    rw [hfind]
    rfl

end ObjectHistory

/-- Where an object of an answer stands. -/
def fetchedAt (obj : FetchObject) : Location := .mk obj.groupId obj.objectId

/-- The Locations of the End of Range markers of an answer. -/
def markersOf (answer : List FetchObject) : List Location :=
  (answer.filter (·.endOfRange.isSome)).map fetchedAt

/-- The objects of an answer that are no markers. -/
def objectsOf (answer : List FetchObject) : List FetchObject :=
  answer.filter (·.endOfRange.isNone)

/-- An object that was added, as a FETCH gets it. -/
def Added.fetched (obj : Added σ) (session : σ) : FetchObject :=
  ObjectHistory.fetchObject session obj.location obj.record obj.priority

/-- A complete and faithful answer to a FETCH: what is in the range stands at or below the
marker or is answered once, with the object first added at its Location. -/
structure Answers (adds : List (Added σ)) (start stop : Location) (session : σ) (descending : Bool)
    (answer : List FetchObject) : Prop where
  oneMarker : (markersOf answer).length ≤ 1
  complete : ∀ obj ∈ adds, start ≤ obj.location → obj.location ≤ stop →
    (∃ marker ∈ markersOf answer, obj.location ≤ marker) ∨
      ((objectsOf answer).map fetchedAt).count obj.location = 1
  within : ∀ obj ∈ objectsOf answer, start ≤ fetchedAt obj ∧ fetchedAt obj ≤ stop ∧
    ∀ marker ∈ markersOf answer, marker < fetchedAt obj
  first : ∀ obj ∈ objectsOf answer, ∃ added,
    adds.find? (·.location = fetchedAt obj) = some added ∧ obj = added.fetched session
  sorted : ((objectsOf answer).map fetchedAt).Pairwise (ObjectHistory.Precedes descending)

namespace ObjectHistory

/-- What is lost ends past `MAX_OBJECT_ID`, and above the last object held of that group an
object of the range was added. -/
def Overlooks (h : ObjectHistory σ) (adds : List (Added σ)) (start stop : Location) : Prop :=
  ∃ through ∈ h.evictedThrough, start ≤ through ∧ maxObjectId < (min through stop).object ∧
    ∃ obj ∈ adds, obj.groupId = (min through stop).group ∧
      (h.lastObject (min through stop).group).getD maxObjectId < obj.objectId ∧
      start ≤ obj.location ∧ obj.location ≤ stop

/-- Where the objects of an answer start. -/
def answerStart (h : ObjectHistory σ) (start stop : Location) : Location :=
  (h.lost start stop).elim start fun lost => max start (.mk lost.group (lost.object + 1))

theorem answerStart_le :
    h.answerStart start stop ≤ loc ↔ start ≤ loc ∧ ∀ lost ∈ h.lost start stop, lost < loc := by
  unfold answerStart
  cases h.lost start stop with
  | none => simp
  | some lost =>
      have hnext : Location.mk lost.group (lost.object + 1) ≤ loc ↔ lost < loc := by
        rw [Location.le_iff, Location.lt_iff, Location.group_mk, Location.object_mk,
          Nat.succ_le_iff]
      simp [hnext]

theorem fetchObjects_unmarked {session : σ} {descending : Bool} {obj : FetchObject}
    (hobj : obj ∈ fetchObjects session descending (h.held start stop)) : obj.endOfRange = none := by
  obtain ⟨loc, entry, -, -, rfl⟩ := mem_fetchObjects.mp hobj
  rfl

theorem objectsOf_fetchObjects (h : ObjectHistory σ) (start stop : Location) (session : σ)
    (descending : Bool) :
    objectsOf (fetchObjects session descending (h.held start stop)) =
      fetchObjects session descending (h.held start stop) := by
  apply List.filter_eq_self.mpr
  intro obj hobj
  rw [fetchObjects_unmarked hobj]
  rfl

theorem markersOf_fetchObjects (h : ObjectHistory σ) (start stop : Location) (session : σ)
    (descending : Bool) :
    markersOf (fetchObjects session descending (h.held start stop)) = [] := by
  rw [markersOf, List.map_eq_nil_iff, List.filter_eq_nil_iff]
  intro obj hobj
  rw [fetchObjects_unmarked hobj]
  decide

theorem objectsOf_fetch (session : σ) (descending : Bool) (lostMarker : Nat) :
    objectsOf (h.fetch start stop session descending lostMarker) =
      fetchObjects session descending (h.held (h.answerStart start stop) stop) := by
  unfold fetch answerStart
  cases h.lost start stop with
  | none => exact objectsOf_fetchObjects _ _ _ session descending
  | some lost =>
      have hobjects := objectsOf_fetchObjects h
        (max start (.mk lost.group (lost.object + 1))) stop session descending
      cases descending with
      | false => exact hobjects
      | true =>
          show objectsOf (_ ++ [_]) = _
          rw [objectsOf, List.filter_append]
          exact (List.append_nil _).trans hobjects

theorem markersOf_fetch (session : σ) (descending : Bool) (lostMarker : Nat) :
    markersOf (h.fetch start stop session descending lostMarker) = (h.lost start stop).toList := by
  unfold fetch
  cases h.lost start stop with
  | none => exact markersOf_fetchObjects _ _ _ session descending
  | some lost =>
      have hmarkers := markersOf_fetchObjects h
        (max start (.mk lost.group (lost.object + 1))) stop session descending
      cases descending with
      | false => exact congrArg (List.cons lost) hmarkers
      | true =>
          show markersOf (_ ++ [_]) = _
          rw [markersOf, List.filter_append, List.map_append]
          exact congrArg (· ++ [lost]) hmarkers

/-- Every Location held is answered, once. -/
theorem map_fetchObjects (session : σ) (descending : Bool) :
    (fetchObjects session descending (h.held start stop)).map fetchedAt =
      keys descending (h.held start stop) := by
  have hall : ∀ key ∈ keys descending (h.held start stop),
      ((h.held start stop).find? (·.1 = key)).map
        (fun entry => fetchedAt (fetchObject session key entry.2.1 entry.2.2)) = some key := by
    intro key hkey
    obtain ⟨entry, hentry⟩ := mem_keys.mp hkey
    rw [hentry]
    rfl
  unfold fetchObjects
  rw [List.map_filterMap]
  generalize keys descending (h.held start stop) = keys at hall
  induction keys with
  | nil => rfl
  | cons key keys ih =>
      have hkey := hall key List.mem_cons_self
      have hrest := ih fun other hother => hall other (List.mem_cons_of_mem _ hother)
      rw [List.filterMap_cons_some (b := key), hrest]
      rw [Option.map_map]
      exact hkey

/-- What is answered is held. -/
theorem mem_answered {session : σ} {descending : Bool} :
    loc ∈ (fetchObjects session descending (h.held start stop)).map fetchedAt ↔
      (start ≤ loc ∧ loc ≤ stop) ∧
        ∃ entry, (h.entriesOf loc.group).find? (·.1.objectId = loc.object) = some entry := by
  rw [map_fetchObjects, mem_keys]
  constructor
  · rintro ⟨entry, hentry⟩
    rw [find?_held] at hentry
    split at hentry
    next hrange =>
        obtain ⟨found, hfound, -⟩ := Option.map_eq_some_iff.mp hentry
        exact ⟨hrange, found, hfound⟩
    · cases hentry
  · rintro ⟨hrange, entry, hentry⟩
    refine ⟨(loc, entry.1, entry.2), ?_⟩
    rw [find?_held, if_pos hrange, hentry]
    rfl

/-- Where the marker stands. -/
theorem lost_eq {through : Location} (hthrough : through ∈ h.evictedThrough)
    (hle : start ≤ through) :
    h.lost start stop = some (if maxObjectId < (min through stop).object then
      .mk (min through stop).group ((h.lastObject (min through stop).group).getD maxObjectId)
    else min through stop) := by
  rw [lost, Option.mem_def.mp hthrough, Option.bind_some, if_pos hle]

/-- A Location that is held stands above the marker, or it is not lost. -/
theorem lost_of_held {entry : Record σ × Nat} (hstart : start ≤ loc) (hstop : loc ≤ stop)
    (hentry : (h.entriesOf loc.group).find? (·.1.objectId = loc.object) = some entry)
    (hlost : h.Lost loc) : ∃ marker ∈ h.lost start stop, loc ≤ marker := by
  obtain ⟨through, hthrough, hle⟩ := hlost
  have hmin : loc ≤ min through stop := le_min hle hstop
  refine ⟨_, lost_eq hthrough (hstart.trans hle), ?_⟩
  split
  · obtain hgroup | ⟨hgroup, -⟩ := Location.le_iff.mp hmin
    · exact Location.le_iff.mpr (Or.inl hgroup)
    · have hobject := le_lastObject maxObjectId (List.mem_of_find?_eq_some hentry)
      have hid := List.find?_some hentry
      simp only [decide_eq_true_eq] at hid
      rw [hid, hgroup] at hobject
      exact Location.le_iff.mpr (Or.inr ⟨hgroup, hobject⟩)
  · exact hmin

/-- A Location that is lost stands at or below the marker, unless it is overlooked. -/
theorem lost_of_not_overlooks {obj : Added σ} (hobj : obj ∈ adds) (hstart : start ≤ obj.location)
    (hstop : obj.location ≤ stop) (hlost : h.Lost obj.location)
    (hnot : ¬ h.Overlooks adds start stop) : ∃ marker ∈ h.lost start stop, obj.location ≤ marker := by
  obtain ⟨through, hthrough, hle⟩ := hlost
  have hmin : obj.location ≤ min through stop := le_min hle hstop
  refine ⟨_, lost_eq hthrough (hstart.trans hle), ?_⟩
  split
  next hclip =>
      obtain hgroup | ⟨hgroup, -⟩ := Location.le_iff.mp hmin
      · exact Location.le_iff.mpr (Or.inl hgroup)
      · apply Location.le_iff.mpr
        refine Or.inr ⟨hgroup, ?_⟩
        by_contra habove
        exact hnot ⟨through, hthrough, hstart.trans hle, hclip, obj, hobj, hgroup,
          Nat.lt_of_not_le habove, hstart, hstop⟩
  · exact hmin

/-- The objects of an answer stand above its marker. -/
theorem fetch_within {session : σ} {descending : Bool} {obj : FetchObject}
    (hobj : obj ∈ fetchObjects session descending (h.held (h.answerStart start stop) stop)) :
    start ≤ fetchedAt obj ∧ fetchedAt obj ≤ stop ∧
      ∀ marker ∈ (h.lost start stop).toList, marker < fetchedAt obj := by
  obtain ⟨loc, entry, ⟨hfrom, hstop⟩, -, rfl⟩ := mem_fetchObjects.mp hobj
  obtain ⟨hstart, habove⟩ := answerStart_le.mp hfrom
  refine ⟨hstart, hstop, ?_⟩
  intro marker hmarker
  exact habove marker (Option.mem_toList.mp hmarker)

/-- An object of an answer is the first that was added at its Location: no earlier one was
dropped, since it stands above the marker. -/
theorem fetch_first (hkeeps : h.Keeps adds) {session : σ} {descending : Bool} {obj : FetchObject}
    (hobj : obj ∈ fetchObjects session descending (h.held (h.answerStart start stop) stop)) :
    ∃ added, adds.find? (·.location = fetchedAt obj) = some added ∧ obj = added.fetched session := by
  obtain ⟨loc, entry, ⟨hfrom, hstop⟩, hentry, rfl⟩ := mem_fetchObjects.mp hobj
  obtain ⟨hstart, habove⟩ := answerStart_le.mp hfrom
  have hnot : ¬ h.Lost loc := by
    intro hlost
    obtain ⟨marker, hmarker, hle⟩ := lost_of_held hstart hstop hentry hlost
    exact absurd (habove marker hmarker) (not_lt_of_ge hle)
  rw [hkeeps.first hnot, Option.map_eq_some_iff] at hentry
  obtain ⟨added, hadded, rfl⟩ := hentry
  have hloc := List.find?_some hadded
  simp only [decide_eq_true_eq] at hloc
  refine ⟨added, hadded, ?_⟩
  rw [Added.fetched, hloc]
  rfl

/-- An object of the range stands at or below the marker or is answered once, unless it is
overlooked. -/
theorem fetch_complete (hkeeps : h.Keeps adds) (hnot : ¬ h.Overlooks adds start stop)
    (session : σ) (descending : Bool) {obj : Added σ} (hobj : obj ∈ adds)
    (hstart : start ≤ obj.location) (hstop : obj.location ≤ stop) :
    (∃ marker ∈ (h.lost start stop).toList, obj.location ≤ marker) ∨
      ((fetchObjects session descending (h.held (h.answerStart start stop) stop)).map
        fetchedAt).count obj.location = 1 := by
  by_cases hbelow : ∃ marker ∈ (h.lost start stop).toList, obj.location ≤ marker
  · exact Or.inl hbelow
  · apply Or.inr
    have hheld : ¬ h.Lost obj.location := by
      intro hlost
      obtain ⟨marker, hmarker, hle⟩ := lost_of_not_overlooks hobj hstart hstop hlost hnot
      exact hbelow ⟨marker, Option.mem_toList.mpr hmarker, hle⟩
    have hfrom : h.answerStart start stop ≤ obj.location := by
      refine answerStart_le.mpr ⟨hstart, ?_⟩
      intro lost hlost
      apply lt_of_not_ge
      intro hle
      exact hbelow ⟨lost, Option.mem_toList.mpr hlost, hle⟩
    have hfirst : ∃ added, adds.find? (·.location = obj.location) = some added := by
      apply Option.isSome_iff_exists.mp
      rw [List.find?_isSome]
      exact ⟨obj, hobj, decide_eq_true rfl⟩
    obtain ⟨added, hadded⟩ := hfirst
    have hmem : obj.location ∈
        (fetchObjects session descending (h.held (h.answerStart start stop) stop)).map fetchedAt := by
      refine mem_answered.mpr ⟨⟨hfrom, hstop⟩, added.entry, ?_⟩
      rw [hkeeps.first hheld, hadded]
      rfl
    apply List.count_eq_one_of_mem _ hmem
    rw [map_fetchObjects]
    exact keys_nodup _ _

/-- An object that is overlooked is neither below the marker nor answered. -/
theorem not_complete (session : σ) (descending : Bool) (hover : h.Overlooks adds start stop) :
    ∃ obj ∈ adds, (start ≤ obj.location ∧ obj.location ≤ stop) ∧
      (∀ marker ∈ (h.lost start stop).toList, marker < obj.location) ∧
      obj.location ∉ (fetchObjects session descending
        (h.held (h.answerStart start stop) stop)).map fetchedAt := by
  obtain ⟨through, hthrough, hle, hclip, obj, hobj, hgroup, habove, hstart, hstop⟩ := hover
  refine ⟨obj, hobj, ⟨hstart, hstop⟩, ?_, ?_⟩
  · intro marker hmarker
    have hmarker := Option.mem_toList.mp hmarker
    rw [lost_eq hthrough hle, if_pos hclip, Option.some.injEq] at hmarker
    rw [← hmarker]
    exact Location.lt_iff.mpr (Or.inr ⟨hgroup.symm, habove⟩)
  · intro hmem
    obtain ⟨-, entry, hentry⟩ := mem_answered.mp hmem
    have hid := List.find?_some hentry
    simp only [decide_eq_true_eq] at hid
    have hheld := le_lastObject maxObjectId (List.mem_of_find?_eq_some hentry)
    have hid : entry.1.objectId = obj.objectId := hid
    have hheld : entry.1.objectId ≤ (h.lastObject obj.groupId).getD maxObjectId := hheld
    rw [hgroup] at hheld
    omega

/-- Whatever was added to a history, and whatever of it was evicted since, a FETCH is
answered completely with what was first added, exactly unless something is overlooked. -/
theorem fetch_answers_iff (maxBytes : Nat) (slack : Option Nat) (adds : List (Added σ))
    (start stop : Location) (session : σ) (descending : Bool) (lostMarker : Nat) :
    Answers adds start stop session descending
        ((run maxBytes slack adds).fetch start stop session descending lostMarker) ↔
      ¬ (run maxBytes slack adds).Overlooks adds start stop := by
  have hkeeps := keeps_run maxBytes slack adds
  generalize run maxBytes slack adds = h at hkeeps ⊢
  constructor
  · intro hanswers hover
    obtain ⟨obj, hobj, ⟨hstart, hstop⟩, habove, hout⟩ := not_complete session descending hover
    have hcomplete := hanswers.complete obj hobj hstart hstop
    rw [markersOf_fetch, objectsOf_fetch] at hcomplete
    obtain ⟨marker, hmarker, hle⟩ | hcount := hcomplete
    · exact absurd (habove marker hmarker) (not_lt_of_ge hle)
    · rw [List.count_eq_zero_of_not_mem hout] at hcount
      omega
  · intro hnot
    refine ⟨?_, ?_, ?_, ?_, ?_⟩
    · rw [markersOf_fetch]
      exact Option.length_toList_le
    · rw [markersOf_fetch, objectsOf_fetch]
      intro obj hobj hstart hstop
      exact fetch_complete hkeeps hnot session descending hobj hstart hstop
    · rw [markersOf_fetch, objectsOf_fetch]
      intro obj hobj
      exact fetch_within hobj
    · rw [objectsOf_fetch]
      intro obj hobj
      exact fetch_first hkeeps hobj
    · rw [objectsOf_fetch, map_fetchObjects]
      exact keys_sorted descending _

/-- Object 10 of group 5 is dropped, then group 6; a late object 3 of group 5 stands for the
end of that group. -/
def lateAdds : List (Added Unit) :=
  [{ groupId := 5, objectId := 10, payload := [] }, { groupId := 6, objectId := 0, payload := [] },
    { groupId := 5, objectId := 3, payload := [] }]

theorem not_fetch_answers_late :
    ¬ Answers lateAdds (.mk 5 0) (.mk 5 (2 ^ 62)) () false
      ((run 224 (some 0) lateAdds).fetch (.mk 5 0) (.mk 5 (2 ^ 62)) () false
        fetchFlagsEndUnknown) := by
  intro hanswers
  have hcomplete := hanswers.complete { groupId := 5, objectId := 10, payload := [] }
    List.mem_cons_self (by decide) (by decide)
  have hmarkers : markersOf ((run 224 (some 0) lateAdds).fetch (.mk 5 0) (.mk 5 (2 ^ 62)) () false
      fetchFlagsEndUnknown) = [.mk 5 3] := by decide +kernel
  have hobjects : (objectsOf ((run 224 (some 0) lateAdds).fetch (.mk 5 0) (.mk 5 (2 ^ 62)) () false
      fetchFlagsEndUnknown)).map fetchedAt = [] := by decide +kernel
  rw [hmarkers, hobjects] at hcomplete
  revert hcomplete
  decide

/-! ## Where the marker stands -/

/-- The End of Range markers of an answer lie in its range, at an Object ID that exists, and
below its objects. -/
structure MarkersInside (start stop : Location) (answer : List FetchObject) : Prop where
  inRange : ∀ marker ∈ markersOf answer, start ≤ marker ∧ marker ≤ stop
  bounded : ∀ marker ∈ markersOf answer, marker.object ≤ maxObjectId
  below : ∀ marker ∈ markersOf answer, ∀ obj ∈ objectsOf answer, ¬ fetchedAt obj ≤ marker

/-- What is lost of the range ends past `MAX_OBJECT_ID`, in a group whose last object held
stands before the range or is itself past it. -/
def Strays (h : ObjectHistory σ) (start stop : Location) : Prop :=
  ∃ through ∈ h.evictedThrough, start ≤ through ∧ maxObjectId < (min through stop).object ∧
    ((h.lastObject (min through stop).group).getD maxObjectId ≤ maxObjectId →
      start.group = (min through stop).group ∧
        (h.lastObject (min through stop).group).getD maxObjectId < start.object)

/-- Unless it strays, the marker lies in the range and names an object that can exist. -/
theorem lost_inside (hrange : start ≤ stop) (hnot : ¬ h.Strays start stop) {marker : Location}
    (hmarker : marker ∈ h.lost start stop) :
    (start ≤ marker ∧ marker ≤ stop) ∧ marker.object ≤ maxObjectId := by
  obtain ⟨through, hthrough, hle⟩ : ∃ through ∈ h.evictedThrough, start ≤ through := by
    unfold lost at hmarker
    obtain ⟨through, hthrough, hmarker⟩ := Option.bind_eq_some_iff.mp hmarker
    split at hmarker
    next hle => exact ⟨through, hthrough, hle⟩
    · cases hmarker
  rw [lost_eq hthrough hle, Option.mem_def, Option.some.injEq] at hmarker
  have hstart : start ≤ min through stop := le_min hle hrange
  have hstop : min through stop ≤ stop := min_le_right _ _
  split at hmarker
  next hclip =>
      -- the rewritten marker keeps its group, and goes down to an object of it
      have hheld : (h.lastObject (min through stop).group).getD maxObjectId ≤ maxObjectId ∧
          (start.group = (min through stop).group →
            start.object ≤ (h.lastObject (min through stop).group).getD maxObjectId) := by
        by_contra hstray
        refine hnot ⟨through, hthrough, hle, hclip, ?_⟩
        intro hmax
        by_contra hgroup
        apply hstray
        refine ⟨hmax, fun heq => ?_⟩
        by_contra hbefore
        exact hgroup ⟨heq, Nat.lt_of_not_le hbefore⟩
      obtain ⟨hmax, hsame⟩ := hheld
      subst hmarker
      refine ⟨⟨?_, ?_⟩, hmax⟩
      · obtain hgroup | ⟨hgroup, -⟩ := Location.le_iff.mp hstart
        · exact Location.le_iff.mpr (Or.inl hgroup)
        · exact Location.le_iff.mpr (Or.inr ⟨hgroup, hsame hgroup⟩)
      · have hdown : Location.mk (min through stop).group
            ((h.lastObject (min through stop).group).getD maxObjectId) ≤ min through stop :=
          Location.le_iff.mpr (Or.inr ⟨rfl, le_trans hmax (Nat.le_of_lt hclip)⟩)
        exact hdown.trans hstop
  next hclip =>
      subst hmarker
      exact ⟨⟨hstart, hstop⟩, Nat.le_of_not_lt hclip⟩

/-- A marker that strays stands before the range, or past `MAX_OBJECT_ID`. -/
theorem not_inside (hstray : h.Strays start stop) :
    ∃ marker ∈ h.lost start stop, ¬ (start ≤ marker ∧ marker.object ≤ maxObjectId) := by
  obtain ⟨through, hthrough, hle, hclip, hgroup⟩ := hstray
  refine ⟨_, lost_eq hthrough hle, ?_⟩
  rw [if_pos hclip]
  rintro ⟨hfrom, hmax⟩
  obtain ⟨heq, hbefore⟩ := hgroup hmax
  obtain hlt | ⟨-, hobject⟩ := Location.le_iff.mp hfrom
  · rw [Location.group_mk, heq] at hlt
    exact Nat.lt_irrefl _ hlt
  · rw [Location.object_mk] at hobject
    omega

/-- Whatever was added to a history, the marker of an answer lies in the range asked for and
below the objects answered, exactly unless it strays. -/
theorem fetch_marker_inside_iff (maxBytes : Nat) (slack : Option Nat) (adds : List (Added σ))
    {start stop : Location} (hrange : start ≤ stop) (session : σ) (descending : Bool)
    (lostMarker : Nat) :
    MarkersInside start stop
        ((run maxBytes slack adds).fetch start stop session descending lostMarker) ↔
      ¬ (run maxBytes slack adds).Strays start stop := by
  generalize run maxBytes slack adds = h
  constructor
  · rintro ⟨hin, hmax, -⟩ hstray
    obtain ⟨marker, hmarker, hnot⟩ := not_inside hstray
    rw [markersOf_fetch] at hin hmax
    have hmem : marker ∈ (h.lost start stop).toList := Option.mem_toList.mpr hmarker
    exact hnot ⟨(hin marker hmem).1, hmax marker hmem⟩
  · intro hnot
    refine ⟨?_, ?_, ?_⟩
    · rw [markersOf_fetch]
      intro marker hmarker
      exact (lost_inside hrange hnot (Option.mem_toList.mp hmarker)).1
    · rw [markersOf_fetch]
      intro marker hmarker
      exact (lost_inside hrange hnot (Option.mem_toList.mp hmarker)).2
    · rw [markersOf_fetch, objectsOf_fetch]
      intro marker hmarker obj hobj
      exact not_le_of_gt ((fetch_within hobj).2.2 marker hmarker)

theorem fetch_marker_inside_late :
    (Location.mk 0 0 ≤ Location.mk 5 0) ∧
      (MarkersInside (.mk 0 0) (.mk 5 0)
          ((run 224 (some 0) lateAdds).fetch (.mk 0 0) (.mk 5 0) () false fetchFlagsEndUnknown) ↔
        ¬ (run 224 (some 0) lateAdds).Strays (.mk 0 0) (.mk 5 0)) := by
  have hrange : Location.mk 0 0 ≤ Location.mk 5 0 := by decide
  exact ⟨hrange, fetch_marker_inside_iff 224 (some 0) lateAdds hrange () false fetchFlagsEndUnknown⟩

/-- From object 8 to the end of group 5 the marker stands at the late object 3. -/
theorem marker_before_range :
    ¬ MarkersInside (.mk 5 8) (.mk 5 (2 ^ 64 - 1))
      ((run 224 (some 0) lateAdds).fetch (.mk 5 8) (.mk 5 (2 ^ 64 - 1)) () false
        fetchFlagsEndUnknown) := by
  rintro ⟨hin, -, -⟩
  have hmarkers : markersOf ((run 224 (some 0) lateAdds).fetch (.mk 5 8) (.mk 5 (2 ^ 64 - 1)) ()
      false fetchFlagsEndUnknown) = [.mk 5 3] := by decide +kernel
  rw [hmarkers] at hin
  obtain ⟨hstart, -⟩ := hin _ List.mem_cons_self
  revert hstart
  decide

end ObjectHistory

end AioMoqt.Delivery
