import AioMoqt.Messages.Proofs.FetchStream
import AioMoqt.Relay.FetchAnswer

/-!
# When the publisher's answer is passed on

The tuple form of an object has no place for the forwarding preference, and the sink
none for End of Range markers; and the End Location is that of the last object in the
list, whose order is that of the request.
-/

namespace AioMoqt.Relay

open AioMoqt.Messages AioMoqt.Lib AioMoqt.Lib.BigEndian

def objectLocation (o : FetchObject) : Location := .mk o.groupId o.objectId

/-- What a publisher answers in the requested order.  No object carries a status: the
drafts with markers have none in FETCH. -/
structure UpstreamAnswer (order : GroupOrder) where
  ok : FetchOk
  items : List FetchObject
  ordered : items.Pairwise (FetchObject.Follows order)
  normal : ∀ o ∈ items, o.status = .normal

/-- A marker for a range the publisher could not tell about. -/
def IsUnknown (o : FetchObject) : Prop :=
  o.endOfRange = some fetchFlagsEndUnknown ∨ o.endOfRange = some fetchFlagsEndTimedOut

/-- The requested group order. -/
def InOrder (order : GroupOrder) (a b : FetchObject) : Prop :=
  if order = .descending then
    b.groupId < a.groupId ∨ a.groupId = b.groupId ∧ a.objectId ≤ b.objectId
  else objectLocation a ≤ objectLocation b

/-- The subscriber is told what the publisher answered; other objects can only come from
the cache, at Locations the publisher sent nothing for. -/
structure Preserved (order : GroupOrder) (answer : UpstreamAnswer order)
    (around : Option CacheQuery) (live : Option LiveTrack) (admits : FetchTuple → Bool)
    (ok : FetchOk) (sent : List FetchObject) : Prop where
  objects : (sent.filter fun o =>
      objectLocation o ∈ (collected answer.items).map objectLocation).Perm
    ((collected answer.items).filter fun o => admits (fetchTuple o))
  cached : ∀ o ∈ sent, objectLocation o ∈ (collected answer.items).map objectLocation ∨
    ∃ query, (query ∈ around ∨ query ∈ live.map LiveTrack.query) ∧
      ∃ c ∈ query.objects, o = countedFetch c
  ordered : sent.Pairwise (InOrder order)
  marked : ∀ o ∈ answer.items, IsUnknown o → o ∈ sent
  endLocation : ∀ o ∈ sent,
    Location.mk o.groupId (o.objectId + 1) ≤ .mk ok.largestGroupId ok.largestObjectId

/-- No datagram among the objects passed on, no range the publisher could not tell about,
and in descending order, without the cache, all the objects in the last one's group. -/
structure PassesWhole (order : GroupOrder) (answer : UpstreamAnswer order)
    (around : Option CacheQuery) (admits : FetchTuple → Bool) : Prop where
  noDatagram : ∀ o ∈ collected answer.items, admits (fetchTuple o) → o.datagram = false
  noUnknown : ∀ o ∈ answer.items, ¬ IsUnknown o
  lastHighest : order = .descending → around = none →
    ∀ last ∈ (collected answer.items).getLast?, ∀ o ∈ collected answer.items,
      admits (fetchTuple o) → o.groupId ≤ last.groupId

/-! ## The steps -/

theorem location_fetchTuple (o : FetchObject) : (fetchTuple o).location = objectLocation o := rfl

theorem location_countedFetch (o : FetchTuple) : objectLocation (countedFetch o) = o.location := rfl

/-- An object comes back from its tuple as a subgroup object. -/
theorem countedFetch_fetchTuple (o : FetchObject) :
    countedFetch (fetchTuple o) = { o with endOfRange := none, datagram := false } := rfl

theorem countedFetch_eq {o : FetchObject} (hkind : o.endOfRange = none) (h : o.datagram = false) :
    countedFetch (fetchTuple o) = o := by
  rw [countedFetch_fetchTuple]
  cases o
  simp_all

theorem mem_collected {items : List FetchObject} {o : FetchObject} :
    o ∈ collected items ↔ o ∈ items ∧ o.endOfRange = none := by
  simp [collected]

theorem sorted_locations (objs : List FetchTuple) :
    (objs.mergeSort fun a b => a.location ≤ b.location).Pairwise
      fun a b => a.location ≤ b.location :=
  pairwise_mergeSort_rel
    (fun a b c (hab : a.location ≤ b.location) (hbc : b.location ≤ c.location) => hab.trans hbc)
    (fun a b => le_total a.location b.location) objs

theorem sorted_descending (objs : List FetchTuple) :
    (descending objs).Pairwise fun a b =>
      b.groupId < a.groupId ∨ a.groupId = b.groupId ∧ a.objectId ≤ b.objectId := by
  apply pairwise_mergeSort_rel
  · intro a b c hab hbc
    omega
  · intro a b
    omega

/-- In a list sorted by Location the last is the largest. -/
theorem le_getLast {objs : List FetchTuple} {last : FetchTuple}
    (hsorted : objs.Pairwise fun a b => a.location ≤ b.location)
    (hlast : objs.getLast? = some last) : ∀ o ∈ objs, o.location ≤ last.location := by
  obtain ⟨before, rfl⟩ := List.getLast?_eq_some_iff.mp hlast
  intro o ho
  rcases List.mem_append.mp ho with hmem | hmem
  · exact (List.pairwise_append.mp hsorted).2.2 o hmem last (by simp)
  · rw [List.mem_singleton.mp hmem]

section

variable {prof : DraftProfile} {order : GroupOrder} {around : Option CacheQuery}
variable {live : Option LiveTrack} {admits : FetchTuple → Bool}

/-- The cache answers only where upstream sent no object, and then with some. -/
theorem cachedMeanwhile_eq_some {items : List FetchObject} {track : LiveTrack}
    (h : cachedMeanwhile live items = some track) :
    collected items = [] ∧ live = some track ∧ track.query.objects ≠ [] := by
  unfold cachedMeanwhile at h
  split at h
  next hempty =>
    obtain ⟨hlive, hheld⟩ := Option.filter_eq_some_iff.mp h
    refine ⟨List.isEmpty_iff.mp hempty, hlive, ?_⟩
    intro hnone
    rw [hnone] at hheld
    cases hheld
  next => cases h

/-- The cached objects that go out with what the publisher sent. -/
def cachedObjects (around : Option CacheQuery) (live : Option LiveTrack)
    (items : List FetchObject) : List FetchTuple :=
  match cachedMeanwhile live items, around with
  | some track, _ => track.query.objects
  | none, none => []
  | none, some query => query.objects.filter fun c =>
      c.location ∉ ((collected items).map fetchTuple).map FetchTuple.location

theorem relayedObjects_perm (around : Option CacheQuery) (live : Option LiveTrack)
    (items : List FetchObject) :
    (relayedObjects around live items).Perm
      ((collected items).map fetchTuple ++ cachedObjects around live items) := by
  unfold relayedObjects cachedObjects
  cases hcached : cachedMeanwhile live items with
  | some track =>
      rw [(cachedMeanwhile_eq_some hcached).1]
      exact List.Perm.refl _
  | none =>
      cases around with
      | none => simp
      | some query =>
          simp only [merged]
          split
          · next hempty =>
              rw [List.isEmpty_iff.mp hempty]
              simp
          · exact List.mergeSort_perm _ _

/-- Where the publisher sent something, that is left as it is. -/
theorem mem_cachedObjects {items : List FetchObject} {c : FetchTuple}
    (h : c ∈ cachedObjects around live items) :
    c.location ∉ (collected items).map objectLocation ∧
      ∃ query, (query ∈ around ∨ query ∈ live.map LiveTrack.query) ∧ c ∈ query.objects := by
  unfold cachedObjects at h
  cases hcached : cachedMeanwhile live items with
  | some track =>
      obtain ⟨hnone, hlive, -⟩ := cachedMeanwhile_eq_some hcached
      rw [hcached] at h
      rw [hnone, hlive]
      exact ⟨List.not_mem_nil, track.query, Or.inr rfl, h⟩
  | none =>
      cases around with
      | none =>
          rw [hcached] at h
          cases h
      | some query =>
          rw [hcached] at h
          obtain ⟨hquery, hout⟩ := List.mem_filter.mp h
          refine ⟨?_, query, Or.inl rfl, hquery⟩
          simpa [location_fetchTuple] using hout

theorem relayedStream_perm (prof : DraftProfile) (order : GroupOrder)
    (around : Option CacheQuery) (live : Option LiveTrack) (admits : FetchTuple → Bool)
    (items : List FetchObject) :
    (relayedStream prof order around live admits items).Perm
      (served prof ((((collected items).map fetchTuple).filter admits).map countedFetch) ++
        served prof (((cachedObjects around live items).filter admits).map countedFetch)) := by
  have hobjs := (relayedObjects_perm around live items).filter admits
  have hsort : (if order = .descending then
      descending ((relayedObjects around live items).filter admits)
      else (relayedObjects around live items).filter admits).Perm
        ((relayedObjects around live items).filter admits) := by
    split
    · exact List.mergeSort_perm _ _
    · exact List.Perm.refl _
  have hmap := ((hsort.trans hobjs).map countedFetch).filter
    fun o => prof.fetchObjectStatus || o.endOfRange.isSome || o.status = .normal
  simpa [relayedStream, served, List.filter_append, List.map_append] using hmap

/-- Every object of the publisher that passes the filters is served. -/
theorem served_upstream {items : List FetchObject} (hnormal : ∀ o ∈ items, o.status = .normal) :
    served prof ((((collected items).map fetchTuple).filter admits).map countedFetch) =
      ((collected items).filter fun o => admits (fetchTuple o)).map
        fun o => countedFetch (fetchTuple o) := by
  rw [List.filter_map, List.map_map, served, List.filter_eq_self.mpr]
  · rfl
  · intro o ho
    obtain ⟨p, hp, rfl⟩ := List.mem_map.mp ho
    have hitem := (mem_collected.mp (List.mem_filter.mp hp).1).1
    simp [countedFetch, fetchTuple, hnormal p hitem]

theorem mem_relayedStream {items : List FetchObject} {o : FetchObject}
    (h : o ∈ relayedStream prof order around live admits items) :
    ∃ t ∈ relayedObjects around live items, admits t ∧ o = countedFetch t := by
  have hmem := (List.mem_filter.mp h).1
  obtain ⟨t, ht, rfl⟩ := List.mem_map.mp hmem
  have hfiltered : t ∈ (relayedObjects around live items).filter admits := by
    split at ht
    · exact (List.mergeSort_perm _ _).mem_iff.mp ht
    · exact ht
  exact ⟨t, (List.mem_filter.mp hfiltered).1, (List.mem_filter.mp hfiltered).2, rfl⟩

/-- No datagram and no marker is ever served. -/
theorem relayedStream_plain {items : List FetchObject} {o : FetchObject}
    (h : o ∈ relayedStream prof order around live admits items) :
    o.datagram = false ∧ o.endOfRange = none := by
  obtain ⟨t, -, -, rfl⟩ := mem_relayedStream h
  exact ⟨rfl, rfl⟩

/-! ## The parts of the answer -/

variable (answer : UpstreamAnswer order)

theorem objects_preserved
    (hdatagram : ∀ o ∈ collected answer.items, admits (fetchTuple o) → o.datagram = false) :
    ((relayedStream prof order around live admits answer.items).filter fun o =>
      objectLocation o ∈ (collected answer.items).map objectLocation).Perm
      ((collected answer.items).filter fun o => admits (fetchTuple o)) := by
  have hperm := (relayedStream_perm prof order around live admits answer.items).filter
    fun o => objectLocation o ∈ (collected answer.items).map objectLocation
  have hown : ((collected answer.items).filter fun o => admits (fetchTuple o)).map
      (fun o => countedFetch (fetchTuple o)) =
      (collected answer.items).filter fun o => admits (fetchTuple o) := by
    apply List.map_congr_left (g := id) _ |>.trans (List.map_id _)
    intro o ho
    obtain ⟨hmem, hadmits⟩ := List.mem_filter.mp ho
    exact countedFetch_eq (mem_collected.mp hmem).2 (hdatagram o hmem hadmits)
  rw [List.filter_append, served_upstream answer.normal, hown] at hperm
  have hall : ((collected answer.items).filter fun o => admits (fetchTuple o)).filter
      (fun o => objectLocation o ∈ (collected answer.items).map objectLocation) =
      (collected answer.items).filter fun o => admits (fetchTuple o) := by
    apply List.filter_eq_self.mpr
    intro o ho
    exact decide_eq_true (List.mem_map_of_mem (List.mem_filter.mp ho).1)
  -- the cached objects lie where the publisher sent nothing
  have hnone : (served prof (((cachedObjects around live answer.items).filter admits).map
      countedFetch)).filter
      (fun o => objectLocation o ∈ (collected answer.items).map objectLocation) = [] := by
    apply List.filter_eq_nil_iff.mpr
    intro o ho
    obtain ⟨t, ht, rfl⟩ := List.mem_map.mp (List.mem_filter.mp ho).1
    rw [location_countedFetch, decide_eq_true_eq]
    exact (mem_cachedObjects (List.mem_filter.mp ht).1).1
  rwa [hall, hnone, List.append_nil] at hperm

theorem cached_preserved {o : FetchObject}
    (h : o ∈ relayedStream prof order around live admits answer.items) :
    objectLocation o ∈ (collected answer.items).map objectLocation ∨
      ∃ query, (query ∈ around ∨ query ∈ live.map LiveTrack.query) ∧
        ∃ c ∈ query.objects, o = countedFetch c := by
  obtain ⟨t, ht, -, rfl⟩ := mem_relayedStream h
  rcases List.mem_append.mp ((relayedObjects_perm around live answer.items).mem_iff.mp ht) with
    hown | hcached
  · left
    obtain ⟨p, hp, rfl⟩ := List.mem_map.mp hown
    exact List.mem_map.mpr ⟨p, hp, rfl⟩
  · right
    obtain ⟨-, query, hfrom, hmem⟩ := mem_cachedObjects hcached
    exact ⟨query, hfrom, t, hmem, rfl⟩

/-- What is relayed is in Location order, unless it is the publisher's in descending
order. -/
theorem relayedObjects_sorted (h : order = .descending →
      around ≠ none ∨ cachedMeanwhile live answer.items ≠ none) :
    (relayedObjects around live answer.items).Pairwise fun a b => a.location ≤ b.location := by
  unfold relayedObjects
  cases hcached : cachedMeanwhile live answer.items with
  | some track => exact sorted_locations _
  | none =>
      cases around with
      | none =>
          have horder : order ≠ .descending := fun hdesc => by simpa [hcached] using h hdesc
          apply List.pairwise_map.mpr
          apply (answer.ordered.filter _).imp
          intro a b hab
          simp only [FetchObject.Follows, if_neg horder] at hab
          rw [Location.le_iff]
          simp only [fetchTuple, FetchTuple.location, Location.group_mk, Location.object_mk]
          omega
      | some query =>
          simp only [merged]
          split
          · exact sorted_locations _
          · exact sorted_locations _

theorem ordered_preserved :
    (relayedStream prof order around live admits answer.items).Pairwise (InOrder order) := by
  apply List.Pairwise.filter
  apply List.pairwise_map.mpr
  by_cases hdesc : order = .descending
  · simp only [InOrder, if_pos hdesc]
    exact sorted_descending _
  · simp only [InOrder, if_neg hdesc]
    exact (relayedObjects_sorted answer fun h => absurd h hdesc).filter _

/-- The End Location sent is just past that of the objects. -/
theorem relayedOk_end (prof : DraftProfile) (requestId : Nat) {stop : Location}
    (h : relayedEnd around live answer.items = some stop) :
    (relayedOk prof order around live requestId answer.ok answer.items).largestGroupId =
        stop.group ∧
      (relayedOk prof order around live requestId answer.ok answer.items).largestObjectId =
        stop.object + 1 := by
  simp [relayedOk, endNext, h]

/-- No object of the cache lies past its End Location. -/
theorem le_endLocation {query : CacheQuery} {o : FetchTuple} (h : o ∈ query.objects) :
    ∃ stop, query.endLocation = some stop ∧ o.location ≤ stop := by
  obtain ⟨last, hlast⟩ := List.getLast?_isSome.mpr (List.ne_nil_of_mem h) |> Option.isSome_iff_exists.mp
  have hrange := (List.mergeSort_perm _ _).mem_iff.mp h
  obtain ⟨hheld, hbounds⟩ := List.mem_filter.mp hrange
  obtain ⟨-, hbound⟩ := of_decide_eq_true hbounds
  unfold CacheQuery.endLocation
  cases hstop : query.stop with
  | none =>
      rw [hlast]
      exact ⟨last.location, rfl, le_getLast (sorted_locations _) hlast o h⟩
  | some stop =>
      refine ⟨_, rfl, ?_⟩
      have hle := hbound stop hstop
      split_ifs
      · -- a whole group ends at its last object
        apply le_max_of_le_right
        rw [Location.le_iff] at hle ⊢
        simp only [FetchTuple.location, Location.group_mk, Location.object_mk] at hle ⊢
        rcases Nat.lt_or_ge o.groupId stop.group with hbelow | hsame
        · exact Or.inl hbelow
        · have hgroup : o.groupId = stop.group := by omega
          refine Or.inr ⟨hgroup, ?_⟩
          have hmem : o.objectId ∈
              (query.cache.filter (·.groupId = stop.group)).map FetchTuple.objectId :=
            List.mem_map_of_mem (List.mem_filter.mpr ⟨hheld, decide_eq_true hgroup⟩)
          exact List.le_max?_getD_of_mem hmem
      · exact hle

theorem endLocation_preserved {requestId : Nat}
    (hhighest : order = .descending → around = none →
      ∀ last ∈ (collected answer.items).getLast?, ∀ o ∈ collected answer.items,
        admits (fetchTuple o) → o.groupId ≤ last.groupId) {o : FetchObject}
    (h : o ∈ relayedStream prof order around live admits answer.items) :
    Location.mk o.groupId (o.objectId + 1) ≤
      .mk (relayedOk prof order around live requestId answer.ok answer.items).largestGroupId
        (relayedOk prof order around live requestId answer.ok answer.items).largestObjectId := by
  obtain ⟨t, ht, hadmits, rfl⟩ := mem_relayedStream h
  obtain ⟨stop, hstop, hle⟩ : ∃ stop, relayedEnd around live answer.items = some stop ∧
      (t.groupId < stop.group ∨ t.groupId = stop.group ∧ t.objectId ≤ stop.object) := by
    cases hcached : cachedMeanwhile live answer.items with
    | some track =>
        have hmem : t ∈ track.query.objects := by
          unfold relayedObjects at ht
          rwa [hcached] at ht
        obtain ⟨stop, hend, hle⟩ := le_endLocation hmem
        refine ⟨stop, ?_, Location.le_iff.mp hle⟩
        unfold relayedEnd
        rw [hcached]
        exact hend
    | none =>
        obtain ⟨last, hlast⟩ := List.getLast?_isSome.mpr (List.ne_nil_of_mem ht) |>
          Option.isSome_iff_exists.mp
        refine ⟨last.location, ?_, ?_⟩
        · unfold relayedEnd
          rw [hcached]
          exact congrArg (Option.map _) hlast
        · by_cases hplain : order = .descending ∧ around = none
          · -- the publisher's own list: the last object is in its lowest group
            obtain ⟨hdesc, rfl⟩ := hplain
            simp only [relayedObjects, hcached, List.getLast?_map, Option.map_eq_some_iff] at hlast ht
            obtain ⟨l, hl, rfl⟩ := hlast
            obtain ⟨p, hp, rfl⟩ := List.mem_map.mp ht
            have hhigh := hhighest hdesc rfl l hl p hp hadmits
            obtain ⟨before, hbefore⟩ := List.getLast?_eq_some_iff.mp hl
            have hordered := answer.ordered.filter fun o => o.endOfRange.isNone
            rw [← collected, hbefore] at hordered
            rw [hbefore] at hp
            simp only [fetchTuple, FetchTuple.location, Location.group_mk, Location.object_mk]
            rcases List.mem_append.mp hp with hmem | hmem
            · have hfollows := (List.pairwise_append.mp hordered).2.2 p hmem l (by simp)
              simp only [FetchObject.Follows, if_pos hdesc] at hfollows
              omega
            · rw [List.mem_singleton.mp hmem]
              omega
          · exact Location.le_iff.mp (le_getLast (relayedObjects_sorted answer fun hdesc =>
              Or.inl fun hnone => hplain ⟨hdesc, hnone⟩) hlast t ht)
  obtain ⟨hgroup, hobject⟩ := relayedOk_end answer prof requestId hstop
  rw [hgroup, hobject, Location.le_iff]
  simp only [Location.group_mk, Location.object_mk, countedFetch]
  omega

/-- The publisher's answer is passed on whole exactly when it holds nothing that the
relay's own forms of it lose. -/
theorem relayed_preserved_iff (prof : DraftProfile) (order : GroupOrder)
    (around : Option CacheQuery) (live : Option LiveTrack) (admits : FetchTuple → Bool)
    (requestId : Nat) (answer : UpstreamAnswer order) :
    Preserved order answer around live admits
        (relayedOk prof order around live requestId answer.ok answer.items)
        (relayedStream prof order around live admits answer.items) ↔
      PassesWhole order answer around admits := by
  constructor
  · intro h
    have hsent : ∀ o ∈ collected answer.items, admits (fetchTuple o) →
        o ∈ relayedStream prof order around live admits answer.items := by
      intro o ho hadmits
      have hmem := h.objects.mem_iff.mpr (List.mem_filter.mpr ⟨ho, hadmits⟩)
      exact (List.mem_filter.mp hmem).1
    refine ⟨?_, ?_, ?_⟩
    · intro o ho hadmits
      exact (relayedStream_plain (hsent o ho hadmits)).1
    · intro o ho hunknown
      have hnone := (relayedStream_plain (h.marked o ho hunknown)).2
      rcases hunknown with hkind | hkind <;> rw [hnone] at hkind <;> cases hkind
    · rintro hdesc rfl last hlast o ho hadmits
      have hend := h.endLocation o (hsent o ho hadmits)
      have hupstream : cachedMeanwhile live answer.items = none := by
        unfold cachedMeanwhile
        rw [if_neg]
        intro hempty
        rw [List.isEmpty_iff.mp hempty] at ho
        cases ho
      have hstop : relayedEnd none live answer.items = some (fetchTuple last).location := by
        unfold relayedEnd relayedObjects
        rw [hupstream]
        simp only [List.getLast?_map, Option.map_eq_some_iff]
        exact ⟨fetchTuple last, ⟨last, hlast, rfl⟩, rfl⟩
      obtain ⟨hgroup, hobject⟩ := relayedOk_end answer prof requestId hstop
      rw [hgroup, hobject, Location.le_iff] at hend
      simp only [FetchTuple.location, Location.group_mk, Location.object_mk, fetchTuple] at hend
      omega
  · intro h
    exact ⟨objects_preserved answer h.noDatagram, fun o => cached_preserved answer,
      ordered_preserved answer, fun o ho hunknown => absurd hunknown (h.noUnknown o ho),
      fun o => endLocation_preserved answer h.lastHighest⟩

end

/-- Objects 1.0 to 1.3 are unknown to the publisher, and 1.4 is there. -/
def markedAnswer : UpstreamAnswer .ascending where
  ok := { requestId := some 0, largestGroupId := 1, largestObjectId := 5, parameters := .empty }
  items := [{ groupId := 1, objectId := 3, endOfRange := some fetchFlagsEndUnknown },
    { groupId := 1, objectId := 4, payload := [0x01] }]
  ordered := by simp [FetchObject.Follows]
  normal := by simp

/-- The subscriber is told that 1.0 to 1.3 do not exist. -/
theorem relayed_not_preserved :
    ¬ ∀ (draft : Draft) (order : GroupOrder) (around : Option CacheQuery)
      (live : Option LiveTrack) (admits : FetchTuple → Bool) (requestId : Nat)
      (answer : UpstreamAnswer order),
      Preserved order answer around live admits
        (relayedOk (profileFor draft) order around live requestId answer.ok answer.items)
        (relayedStream (profileFor draft) order around live admits answer.items) := by
  intro h
  have hmarked := (h .d18 .ascending none none (fun _ => true) 0 markedAnswer).marked
    { groupId := 1, objectId := 3, endOfRange := some fetchFlagsEndUnknown }
    (by simp [markedAnswer]) (.inl rfl)
  have hnone := (relayedStream_plain hmarked).2
  cases hnone

end AioMoqt.Relay
