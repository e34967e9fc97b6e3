import AioMoqt.Delivery.Proofs.HistoryFetch
import AioMoqt.Publisher.Fetch

/-!
# What a FETCH of a published track is answered

Every object ever published that a FETCH asks for, up to the Largest Object or the Joining
Location, is answered once as it was first published, or was evicted: then a marker stands
at or past it, or in its group and past all that is left of the group.
-/

namespace AioMoqt.Publisher

open AioMoqt.Delivery AioMoqt.Delivery.ObjectHistory AioMoqt.Lib AioMoqt.Messages

namespace FetchedTrack

variable {σ : Type} {t : FetchedTrack σ} {prof : DraftProfile} {h : ObjectHistory σ} {msg : Fetch}
  {adds : List (Added σ)} {range : ServedRange} {loc : Location}

/-! ## What is asked for -/

/-- The Locations before the end of a standalone FETCH. -/
def BeforeEnd (msg : Fetch) (loc : Location) : Prop :=
  if (endOf msg).object = 0 then loc.group ≤ (endOf msg).group else loc < endOf msg

/-- The Locations a FETCH asks for, up to Largest or to its Joining Location. -/
def asked (t : FetchedTrack σ) (prof : DraftProfile) (msg : Fetch) : Set Location :=
  if prof.fetchLocationFilter then
    {loc | ∃ largest ∈ t.largest,
      loc ∈ ((msg.locationFilter.getD .none).resolve (some largest) true).denoted}
  else if isJoining msg.fetchType then
    {loc | ∃ anchor ∈ t.anchor msg, joiningStart msg anchor ≤ loc ∧ loc ≤ anchor}
  else {loc | startOf msg ≤ loc ∧ BeforeEnd msg loc ∧ ∀ largest ∈ t.largest, loc ≤ largest}

/-- A range that serves what is asked for, but for what is above the last object held of
its last group. -/
structure Covers (h : ObjectHistory σ) (asked : Set Location) (range : ServedRange) : Prop where
  start : ∀ loc ∈ asked, range.start ≤ loc
  within : ∀ loc, range.start ≤ loc → loc ≤ range.last → loc ∈ asked
  tail : ∀ loc ∈ asked, loc.object ≤ maxObjectId → range.last < loc →
    loc.group = range.last.group ∧ (h.lastObject loc.group).getD 0 < loc.object
  stop : ∀ loc ≤ range.last,
    loc < range.stop ∨ range.stop.object = 0 ∧ loc.group ≤ range.stop.group

theorem lt_past (loc : Location) : loc < past loc :=
  Location.lt_iff.mpr (Or.inr ⟨rfl, Nat.lt_succ_self _⟩)

theorem beforeEnd_of_le (hle : loc ≤ lastOf msg) : BeforeEnd msg loc := by
  unfold lastOf at hle
  unfold BeforeEnd
  split at hle <;> simp only [Location.le_iff, Location.lt_iff, Location.group_mk,
    Location.object_mk, *, if_true, if_false] at hle ⊢ <;> omega

theorem le_of_beforeEnd (hend : BeforeEnd msg loc) (hmax : loc.object ≤ maxObjectId) :
    loc ≤ lastOf msg := by
  unfold maxObjectId at hmax
  unfold lastOf
  unfold BeforeEnd at hend
  split at hend <;> simp only [Location.le_iff, Location.lt_iff, Location.group_mk,
    Location.object_mk, *, if_true, if_false] at hend ⊢ <;> omega

theorem past_stop {last : Location} (hle : loc ≤ last) :
    loc < past last ∨ (past last).object = 0 ∧ loc.group ≤ (past last).group :=
  Or.inl (hle.trans_lt (lt_past last))

theorem covers_to (h : ObjectHistory σ) (start stop : Location) :
    Covers h {loc | start ≤ loc ∧ loc ≤ stop} ⟨start, stop, past stop⟩ where
  start _ hloc := hloc.1
  within _ hstart hstop := ⟨hstart, hstop⟩
  tail _ hloc _ habove := absurd hloc.2 (not_le_of_gt habove)
  stop _ hle := past_stop hle

/-- A whole End Group ends at the last object held of it. -/
theorem covers_whole {start stop held : Location} (hgroup : held.group = stop.group)
    (hobject : held.object = (h.lastObject stop.group).getD 0) (hheld : held ≤ stop)
    (hrange : start ≤ stop) : Covers h {loc | start ≤ loc ∧ loc ≤ stop}
      ⟨start, max start held, past (max start held)⟩ where
  start _ hloc := hloc.1
  within _ hstart hstop := ⟨hstart, hstop.trans (max_le hrange hheld)⟩
  tail loc hloc _ habove := by
    have habove : max start held < loc := habove
    have hbelow := Location.le_iff.mp hloc.2
    have hover := Location.lt_iff.mp ((le_max_right start held).trans_lt habove)
    have hle := Location.le_iff.mp habove.le
    have hge := Location.le_iff.mp (le_max_right start held)
    have hsame : loc.group = stop.group := by omega
    refine ⟨?_, ?_⟩
    · show loc.group = (max start held).group
      omega
    · rw [hsame]
      omega
  stop _ hle := past_stop hle

theorem fetchRangeD20_covers (hheld : ∀ g, (h.lastObject g).getD 0 ≤ maxObjectId)
    (hrange : t.fetchRangeD20 h msg = .ok range) : Covers h {loc | ∃ largest ∈ t.largest,
      loc ∈ ((msg.locationFilter.getD .none).resolve (some largest) true).denoted} range := by
  unfold fetchRangeD20 at hrange
  cases hlargest : t.largest with
  | none => simp [hlargest] at hrange
  | some largest =>
    simp only [hlargest] at hrange
    obtain ⟨start, stop, hresolve⟩ : ∃ start stop,
        (msg.locationFilter.getD .none).resolve (some largest) true = ⟨start, some stop⟩ :=
      ⟨_, _, rfl⟩
    have hasked : {loc | ∃ l ∈ some largest,
        loc ∈ ((msg.locationFilter.getD .none).resolve (some l) true).denoted} =
        {loc | start ≤ loc ∧ loc ≤ stop} := by
      ext loc
      simp only [Option.mem_def, Option.some.injEq, exists_eq_left', hresolve,
        LocationRange.denoted, Set.mem_ofPred_eq, forall_eq']
    rw [hasked]
    simp only [hresolve, Option.getD_some] at hrange
    split_ifs at hrange with hafter hempty hwhole
    all_goals obtain rfl := Except.ok.inj hrange
    · refine covers_whole rfl rfl (Location.le_iff.mpr (Or.inr ⟨rfl, ?_⟩)) (not_lt.mp hempty)
      have hmax := hheld stop.group
      unfold maxObjectId at hmax
      unfold u64Max at hwhole
      rw [Location.object_mk]
      omega
    · exact covers_to h start stop

/-- A standalone range, of a track at `largest`. -/
theorem standalone_covers {largest : Location} (hrange : (if largest < startOf msg then
      .error (.invalidRange "no object at or after the start")
    else if lastOf msg < startOf msg then .error (.invalidRange "end before start")
    else if largest ≤ lastOf msg then .ok ⟨startOf msg, largest, past largest⟩
    else .ok ⟨startOf msg, lastOf msg, endOf msg⟩ : Except FetchRefused ServedRange) = .ok range) :
    Covers h {loc | startOf msg ≤ loc ∧ BeforeEnd msg loc ∧ ∀ l ∈ some largest, loc ≤ l}
      range := by
  split_ifs at hrange with hafter hempty hclip
  all_goals obtain rfl := Except.ok.inj hrange
  · exact {
      start := fun _ hloc => hloc.1
      within := fun _ hstart hstop =>
        ⟨hstart, beforeEnd_of_le (hstop.trans hclip), by simpa using hstop⟩
      tail := fun _ hloc _ habove => absurd (hloc.2.2 largest rfl) (not_le_of_gt habove)
      stop := fun _ => past_stop }
  · exact {
      start := fun _ hloc => hloc.1
      within := fun _ hstart hstop =>
        ⟨hstart, beforeEnd_of_le hstop, by simpa using hstop.trans (not_le.mp hclip).le⟩
      tail := fun _ hloc hmax habove =>
        absurd (le_of_beforeEnd hloc.2.1 hmax) (not_le_of_gt habove)
      stop := fun loc hstop => by
        have hend := beforeEnd_of_le hstop
        unfold BeforeEnd at hend
        split at hend
        next hwhole => exact Or.inr ⟨hwhole, hend⟩
        · exact Or.inl hend }

theorem fetchRange_covers (hheld : ∀ g, (h.lastObject g).getD 0 ≤ maxObjectId)
    (hrange : t.fetchRange prof h msg = .ok range) : Covers h (t.asked prof msg) range := by
  unfold fetchRange at hrange
  unfold asked
  by_cases hfilter : prof.fetchLocationFilter
  · rw [if_pos hfilter] at hrange ⊢
    exact fetchRangeD20_covers hheld hrange
  · rw [if_neg hfilter] at hrange ⊢
    by_cases hjoining : isJoining msg.fetchType
    · rw [if_pos hjoining] at hrange ⊢
      cases hanchor : t.anchor msg with
      | none => cases hforward : t.forward <;> simp [hanchor, hforward] at hrange
      | some anchor =>
        cases hforward : t.forward <;> simp only [hanchor, hforward] at hrange
        · cases hrange
        · obtain rfl := Except.ok.inj hrange
          simpa using covers_to h (joiningStart msg anchor) anchor
    · rw [if_neg hjoining] at hrange ⊢
      cases hlargest : t.largest with
      | none => simp [hlargest] at hrange
      | some largest =>
        simp only [hlargest] at hrange
        exact standalone_covers hrange

/-! ## What the history holds -/

theorem mem_adds (hkeeps : h.Keeps adds) {group : Nat} {entry : Record σ × Nat}
    (hentry : entry ∈ h.entriesOf group) : ∃ obj ∈ adds, entry.1.objectId = obj.objectId := by
  obtain ⟨dropped, hadds, -⟩ := hkeeps.kept group
  have hmem : entry ∈ (adds.filter (·.groupId = group)).map Added.entry := by
    rw [hadds]
    exact List.mem_append_right _ hentry
  obtain ⟨obj, hobj, rfl⟩ := List.mem_map.mp hmem
  exact ⟨obj, (List.mem_filter.mp hobj).1, rfl⟩

theorem lastObject_le (hkeeps : h.Keeps adds) (hids : ∀ obj ∈ adds, obj.objectId ≤ maxObjectId)
    {fallback : Nat} (hfallback : fallback ≤ maxObjectId) (group : Nat) :
    (h.lastObject group).getD fallback ≤ maxObjectId := by
  unfold ObjectHistory.lastObject
  cases hget : h.groups.get? group with
  | none => exact hfallback
  | some grp =>
    have hmax : ∀ ids : List Nat, (∀ id ∈ ids, id ≤ maxObjectId) → ∀ start ≤ maxObjectId,
        ids.foldl max start ≤ maxObjectId := by
      intro ids
      induction ids with
      | nil => exact fun _ _ hstart => hstart
      | cons id ids ih =>
        intro hall start hstart
        exact ih (fun id' hid => hall id' (List.mem_cons_of_mem _ hid)) _
          (max_le hstart (hall id List.mem_cons_self))
    refine hmax _ (fun id hid => ?_) 0 (Nat.zero_le _)
    obtain ⟨slot, hslot, rfl⟩ := List.mem_map.mp hid
    obtain ⟨obj, hobj, heq⟩ := mem_adds hkeeps
      (show (slot.1, grp.priorityOf slot.2) ∈ h.entriesOf group by
        rw [entriesOf, hget]
        exact List.mem_map_of_mem hslot)
    exact heq.trans_le (hids obj hobj)

/-- The marker of an answer stands at or before what is lost. -/
theorem lost_le (hheld : ∀ g, (h.lastObject g).getD maxObjectId ≤ maxObjectId)
    {start stop marker : Location} (hmarker : marker ∈ h.lost start stop) : h.Lost marker := by
  unfold ObjectHistory.lost at hmarker
  obtain ⟨through, hthrough, hmarker⟩ := Option.bind_eq_some_iff.mp hmarker
  refine ⟨through, hthrough, ?_⟩
  split at hmarker
  · obtain rfl := Option.some.inj hmarker
    split
    next hclip =>
      have hdown : Location.mk (min through stop).group
          ((h.lastObject (min through stop).group).getD maxObjectId) ≤ min through stop :=
        Location.le_iff.mpr (Or.inr ⟨rfl, (hheld _).trans hclip.le⟩)
      exact hdown.trans (min_le_left through stop)
    · exact min_le_left _ _
  · cases hmarker

/-! ## The answer -/

/-- A complete answer: `asked` is what the FETCH asks for, and `marks` says that the draft
has markers. -/
structure Serves (adds : List (Added σ)) (h : ObjectHistory σ) (asked : Set Location)
    (marks : Prop) (session : σ) (served : FetchServed) : Prop where
  sound : ∀ obj ∈ objectsOf served.objects, fetchedAt obj ∈ asked ∧ ∃ added,
    adds.find? (·.location = fetchedAt obj) = some added ∧ obj = added.fetched session
  sorted : ((objectsOf served.objects).map fetchedAt).Pairwise (Precedes served.descending)
  complete : ∀ obj ∈ adds, obj.location ∈ asked → ¬ h.Lost obj.location →
    ((objectsOf served.objects).map fetchedAt).count obj.location = 1
  marked : marks → ∀ obj ∈ adds, obj.location ∈ asked → h.Lost obj.location →
    ∃ marker ∈ markersOf served.objects, obj.location ≤ marker ∨
      marker.group = obj.groupId ∧
        ∀ entry ∈ h.entriesOf obj.groupId, entry.1.objectId < obj.objectId
  single : (markersOf served.objects).length ≤ 1
  apart : ∀ marker ∈ markersOf served.objects, ∀ obj ∈ objectsOf served.objects,
    marker < fetchedAt obj
  stop : ∀ obj ∈ objectsOf served.objects, fetchedAt obj < served.stop ∨
    served.stop.object = 0 ∧ obj.groupId ≤ served.stop.group

/-- What was evicted of a range is marked. -/
theorem marked_of_lost {asked : Set Location} (hcovers : Covers h asked range) {obj : Added σ}
    (hmax : obj.objectId ≤ maxObjectId) (hasked : obj.location ∈ asked)
    (hlost : h.Lost obj.location) :
    ∃ marker ∈ (h.lost range.start range.last).toList, obj.location ≤ marker ∨
      marker.group = obj.groupId ∧
        ∀ entry ∈ h.entriesOf obj.groupId, entry.1.objectId < obj.objectId := by
  obtain ⟨through, hthrough, hle⟩ := hlost
  have hstart := hcovers.start _ hasked
  refine ⟨_, Option.mem_toList.mpr (lost_eq hthrough (hstart.trans hle)), ?_⟩
  have hheld : ∀ fallback, (h.lastObject obj.groupId).getD fallback < obj.objectId →
      ∀ entry ∈ h.entriesOf obj.groupId, entry.1.objectId < obj.objectId :=
    fun fallback habove _ hentry => (le_lastObject fallback hentry).trans_lt habove
  rcases le_or_gt obj.location range.last with hlast | hlast
  · have hmin : obj.location ≤ min through range.last := le_min hle hlast
    split_ifs with hclip
    · by_cases hcovered : obj.location ≤ .mk (min through range.last).group
          ((h.lastObject (min through range.last).group).getD maxObjectId)
      · exact Or.inl hcovered
      · have hover := Location.lt_iff.mp (not_le.mp hcovered)
        rw [Location.group_mk, Location.object_mk] at hover
        have hgroup : (min through range.last).group = obj.groupId := by
          have hbelow := Location.le_iff.mp hmin
          show _ = obj.location.group
          omega
        refine Or.inr ⟨hgroup, hheld maxObjectId ?_⟩
        rw [hgroup] at hover
        exact (hover.resolve_left (lt_irrefl _)).2
    · exact Or.inl hmin
  · -- The range was cut to what is held of its last group.
    obtain ⟨hgroup, habove⟩ := hcovers.tail _ hasked hmax hlast
    have hcut : min through range.last = range.last := min_eq_right (hlast.le.trans hle)
    rw [hcut]
    refine Or.inr ⟨?_, hheld 0 habove⟩
    split <;> exact hgroup.symm

/-- What is held of a range is answered once. -/
theorem count_of_held (hkeeps : h.Keeps adds)
    (hids : ∀ obj ∈ adds, obj.objectId ≤ maxObjectId) {asked : Set Location}
    (hcovers : Covers h asked range) (session : σ) (descending : Bool) {obj : Added σ}
    (hobj : obj ∈ adds) (hasked : obj.location ∈ asked) (hheld : ¬ h.Lost obj.location) :
    ((fetchObjects session descending
      (h.held (h.answerStart range.start range.last) range.last)).map fetchedAt).count
        obj.location = 1 := by
  have hfirst : ∃ added, adds.find? (·.location = obj.location) = some added := by
    apply Option.isSome_iff_exists.mp
    rw [List.find?_isSome]
    exact ⟨obj, hobj, decide_eq_true rfl⟩
  obtain ⟨added, hadded⟩ := hfirst
  have hentry := hkeeps.first hheld
  rw [hadded, Option.map_some] at hentry
  have hlast : obj.location ≤ range.last := by
    by_contra hover
    obtain ⟨-, habove⟩ := hcovers.tail _ hasked (hids obj hobj) (not_le.mp hover)
    have hle := le_lastObject 0 (List.mem_of_find?_eq_some hentry)
    have hid := List.find?_some hentry
    simp only [decide_eq_true_eq] at hid
    omega
  have hfrom : h.answerStart range.start range.last ≤ obj.location := by
    refine answerStart_le.mpr ⟨hcovers.start _ hasked, fun lost hlost => lt_of_not_ge ?_⟩
    intro hle
    obtain ⟨through, hthrough, hbelow⟩ := lost_le (lastObject_le hkeeps hids le_rfl) hlost
    exact hheld ⟨through, hthrough, hle.trans hbelow⟩
  apply List.count_eq_one_of_mem
  · rw [map_fetchObjects]
    exact keys_nodup _ _
  · exact mem_answered.mpr ⟨⟨hfrom, hlast⟩, added.entry, hentry⟩

theorem objectsOf_marked (objects : List FetchObject) :
    objectsOf (marked prof objects) = objectsOf objects := by
  unfold marked
  split_ifs
  · rfl
  · simp [objectsOf]

theorem markersOf_marked (objects : List FetchObject) :
    markersOf (marked prof objects) = if prof.draft16 then markersOf objects else [] := by
  unfold marked
  split_ifs
  · rfl
  · rw [markersOf, List.map_eq_nil_iff, List.filter_filter, List.filter_eq_nil_iff]
    intro obj _
    cases obj.endOfRange <;> simp

/-- What a FETCH that is served is answered. -/
theorem onFetch_eq_ok {session : σ} {served : FetchServed} (hhistory : t.history = some h)
    (hserved : t.onFetch prof msg session = .ok served) :
    ∃ range, t.fetchRange prof h msg = .ok range ∧ served.stop = range.stop ∧
      served.objects = marked prof (h.fetch range.start range.last session served.descending
        (lostMarker prof msg)) := by
  unfold onFetch at hserved
  rw [hhistory] at hserved
  cases hrange : t.fetchRange prof h msg with
  | error refused => simp [hrange, bind, Except.bind] at hserved
  | ok range =>
    simp only [hrange, bind, Except.bind] at hserved
    split at hserved
    · cases hserved
    · obtain rfl := Except.ok.inj hserved
      exact ⟨range, rfl, rfl, rfl⟩

/-- Whatever was published and whatever of it was evicted since, whatever a FETCH asks for:
where it is served, it is served completely. -/
theorem onFetch_serves (maxBytes : Nat) (slack : Option Nat) (adds : List (Added σ))
    (hids : ∀ obj ∈ adds, obj.objectId ≤ maxObjectId) (t : FetchedTrack σ)
    (hhistory : t.history = some (run maxBytes slack adds)) (prof : DraftProfile) (msg : Fetch)
    (session : σ) {served : FetchServed} (hserved : t.onFetch prof msg session = .ok served) :
    Serves adds (run maxBytes slack adds) (t.asked prof msg) (prof.draft16 = true) session
      served := by
  have hkeeps := keeps_run maxBytes slack adds
  obtain ⟨range, hrange, hstop, hobjects⟩ := onFetch_eq_ok hhistory hserved
  generalize run maxBytes slack adds = h at hkeeps hrange hobjects ⊢
  have hcovers := fetchRange_covers (lastObject_le hkeeps hids (Nat.zero_le _)) hrange
  constructor
  all_goals simp only [hobjects, hstop, objectsOf_marked, markersOf_marked, objectsOf_fetch,
    markersOf_fetch]
  · intro obj hobj
    obtain ⟨hstart, hlast, -⟩ := fetch_within hobj
    exact ⟨hcovers.within _ hstart hlast, fetch_first hkeeps hobj⟩
  · rw [map_fetchObjects]
    exact keys_sorted _ _
  · intro obj hobj hasked hheld
    exact count_of_held hkeeps hids hcovers session _ hobj hasked hheld
  · intro hmarks obj hobj hasked hlost
    rw [if_pos hmarks]
    exact marked_of_lost hcovers (hids obj hobj) hasked hlost
  · split
    · exact Option.length_toList_le
    · exact Nat.zero_le 1
  · intro marker hmarker obj hobj
    split at hmarker
    · exact (fetch_within hobj).2.2 marker hmarker
    · cases hmarker
  · intro obj hobj
    obtain ⟨-, hlast, -⟩ := fetch_within hobj
    exact hcovers.stop _ hlast

/-- Group 5 was evicted when group 6 was published, and both are asked for. -/
def evictedAdds : List (Added Unit) :=
  [{ groupId := 5, objectId := 0, payload := [] }, { groupId := 6, objectId := 0, payload := [] }]

def evictedTrack : FetchedTrack Unit :=
  { history := some (run 224 (some 0) evictedAdds), largest := some (.mk 6 0) }

def bothGroups : Fetch :=
  { fetchType := FetchType.standalone, requestId := 0, range := { endGroup := some 6 }
    parameters := .empty }

theorem onFetch_serves_evicted : ∃ served,
    evictedTrack.onFetch (profileFor .d18) bothGroups () = .ok served ∧
      Serves evictedAdds (run 224 (some 0) evictedAdds)
        (evictedTrack.asked (profileFor .d18) bothGroups) ((profileFor .d18).draft16 = true) ()
        served := by
  have hok : (evictedTrack.onFetch (profileFor .d18) bothGroups ()).isOk = true := by
    decide +kernel
  cases hserved : evictedTrack.onFetch (profileFor .d18) bothGroups () with
  | error refused =>
    rw [hserved] at hok
    cases hok
  | ok served =>
    refine ⟨served, rfl, ?_⟩
    exact onFetch_serves 224 (some 0) evictedAdds (by decide) evictedTrack rfl (profileFor .d18)
      bothGroups () hserved

end FetchedTrack

end AioMoqt.Publisher
