import AioMoqt.Messages.RangeFilters

/-!
# The compiled Range Filters are the filters

`for_track` and `admits` evaluate one formula at two times.  It is stated here over the
parameters: some SetID of which every filter contains the value it is tested on.
-/

namespace AioMoqt.Messages

open AioMoqt.Lib

/-! ## The filters of a dictionary -/

/-- A dictionary holds a Range Filter under its type. -/
def HoldsFilter (params : Params) (ptype : Nat) (filter : RangeFilter) : Prop :=
  ptype ∈ rangeFilters ∧ ∃ slot, params.get? ptype = some slot ∧
    ParamValue.plain (.rangeFilter filter) ∈ slot.values

theorem rangeFilter?_eq_some {value : ParamValue} {filter : RangeFilter} :
    value.rangeFilter? = some filter ↔ value = .plain (.rangeFilter filter) := by
  unfold ParamValue.rangeFilter?
  split
  · simp
  · next hnot =>
      constructor
      · intro h
        cases h
      · intro h
        exact absurd h (hnot filter)

theorem mem_rangeFilterItems {params : Params} {item : Nat × RangeFilter} :
    item ∈ rangeFilterItems params ↔ HoldsFilter params item.1 item.2 := by
  obtain ⟨ptype, filter⟩ := item
  simp only [rangeFilterItems, List.mem_flatMap, HoldsFilter]
  constructor
  · rintro ⟨type, htype, hmem⟩
    cases hget : params.get? type with
    | none => simp [hget] at hmem
    | some slot =>
        simp only [hget, List.mem_map, List.mem_filterMap, Prod.mk.injEq] at hmem
        obtain ⟨found, ⟨value, hvalue, hfound⟩, rfl, rfl⟩ := hmem
        rw [rangeFilter?_eq_some] at hfound
        subst hfound
        exact ⟨htype, slot, hget, hvalue⟩
  · rintro ⟨htype, slot, hget, hvalue⟩
    refine ⟨ptype, htype, ?_⟩
    simp only [hget, List.mem_map, List.mem_filterMap]
    exact ⟨filter, ⟨_, hvalue, rangeFilter?_eq_some.mpr rfl⟩, rfl⟩

/-- A value lies in one of the ranges of a filter; a missing one does not, and neither
does one that is no integer. -/
def RangeFilter.Contains (filter : RangeFilter) (value : Option KvpValue) : Prop :=
  ∃ v, value = some (.int v) ∧ ∃ range ∈ filter.ranges, range.1 ≤ v ∧ ∀ stop ∈ range.2, v ≤ stop

theorem inRanges_iff {filter : RangeFilter} {value : Option KvpValue} :
    inRanges filter value = true ↔ filter.Contains value := by
  unfold inRanges RangeFilter.Contains
  split
  · next v =>
      simp only [List.any_eq_true, decide_eq_true_eq, Option.some.injEq, KvpValue.int.injEq,
        exists_eq_left']
      constructor
      · rintro ⟨range, hrange, hstart, hstop⟩
        refine ⟨range, hrange, hstart, fun stop hmem => ?_⟩
        rw [Option.mem_def] at hmem
        simpa [hmem] using hstop
      · rintro ⟨range, hrange, hstart, hstop⟩
        refine ⟨range, hrange, hstart, ?_⟩
        cases hopen : range.2 with
        | none => rfl
        | some stop => simpa using hstop stop hopen
  · next hnot =>
      constructor
      · intro h
        cases h
      · rintro ⟨v, rfl, -⟩
        exact absurd rfl (hnot v)

namespace RangeFilters

/-! ## The sets -/

theorem get?_addToSet (bySet : Dict Nat (List (Nat × RangeFilter))) (item : Nat × RangeFilter)
    (setId : Nat) :
    (addToSet bySet item).get? setId =
      if item.2.setId = some setId then some ((bySet.get? setId).getD [] ++ [item])
      else bySet.get? setId := by
  unfold addToSet
  cases hset : item.2.setId with
  | none => simp
  | some own =>
      simp only [Dict.get?_insert, Option.some.injEq]
      by_cases heq : own = setId
      · subst heq
        simp
      · simp [heq, Ne.symm heq]

/-- The filters of one SetID, in the order of the dictionary. -/
def ofSet (items : List (Nat × RangeFilter)) (setId : Nat) : List (Nat × RangeFilter) :=
  items.filter (·.2.setId = some setId)

/-- Compiling puts the filters of each SetID behind what its set held. -/
theorem get?_foldl_addToSet (items : List (Nat × RangeFilter)) (setId : Nat) :
    ∀ bySet : Dict Nat (List (Nat × RangeFilter)),
      (items.foldl addToSet bySet).get? setId =
        if ofSet items setId = [] then bySet.get? setId
        else some ((bySet.get? setId).getD [] ++ ofSet items setId) := by
  induction items with
  | nil =>
      intro bySet
      rfl
  | cons item items ih =>
      intro bySet
      rw [List.foldl_cons, ih, get?_addToSet]
      by_cases hset : item.2.setId = some setId
      · have hcons : ofSet (item :: items) setId = item :: ofSet items setId :=
          List.filter_cons_of_pos (by simpa using hset)
        rw [if_pos hset, hcons]
        by_cases hnil : ofSet items setId = []
        · simp [hnil]
        · simp [hnil]
      · have hskip : ofSet (item :: items) setId = ofSet items setId :=
          List.filter_cons_of_neg (by simpa using hset)
        rw [if_neg hset, hskip]

/-- The sets are the filters of each SetID that has any. -/
theorem mem_sets {params : Option Params} {filters : List (Nat × RangeFilter)} :
    filters ∈ (fromParams params).sets ↔
      filters ≠ [] ∧ ∃ setId, filters = ofSet (rangeFilterItems (params.getD .empty)) setId := by
  simp only [fromParams, List.mem_map, Prod.exists, exists_eq_right]
  constructor
  · rintro ⟨setId, hmem⟩
    have hget := Dict.get?_eq_some.mpr ((Dict.sorted_perm _).mem_iff.mp hmem)
    rw [get?_foldl_addToSet] at hget
    split at hget
    · cases hget
    · next hne =>
        simp only [Dict.get?_empty, Option.getD_none, List.nil_append, Option.some.injEq] at hget
        subst hget
        exact ⟨hne, setId, rfl⟩
  · rintro ⟨hne, setId, rfl⟩
    refine ⟨setId, (Dict.sorted_perm _).mem_iff.mpr (Dict.get?_eq_some.mp ?_)⟩
    rw [get?_foldl_addToSet, if_neg hne]
    rfl

/-! ## The formula -/

/-- The value a filter is tested on: a Track Property filter on the track, the others on
the object. -/
def testedValue (track object : Option (Dict Nat KvpValue)) (subgroupId objectId priority : Nat)
    (ptype : Nat) (filter : RangeFilter) : Option KvpValue :=
  if ptype = trackPropertyFilter then propertyOf track filter
  else if ptype = objectPropertyFilter then propertyOf object filter
  else if ptype = subgroupFilter then some (.int subgroupId)
  else if ptype = objectIdFilter then some (.int objectId)
  else if ptype = priorityFilter then some (.int priority)
  else none

section

variable {track object : Option (Dict Nat KvpValue)} {subgroupId objectId priority : Nat}

/-- The two tests of a filter, when the track is known and on the object, are one. -/
theorem tests_iff {item : Nat × RangeFilter} (htype : item.1 ∈ rangeFilters) :
    ((item.1 = trackPropertyFilter → inRanges item.2 (propertyOf track item.2) = true) ∧
      (item.1 ≠ trackPropertyFilter →
        passesObject subgroupId objectId priority object item = true)) ↔
      item.2.Contains (testedValue track object subgroupId objectId priority item.1 item.2) := by
  obtain ⟨ptype, filter⟩ := item
  simp only [rangeFilters, List.mem_cons, List.not_mem_nil, or_false] at htype
  rw [← inRanges_iff]
  rcases htype with rfl | rfl | rfl | rfl | rfl <;>
    simp [testedValue, passesObject, objectValue, trackPropertyFilter, objectPropertyFilter, subgroupFilter,
      objectIdFilter, priorityFilter]

/-- A set of which every filter passes, on the track or on the object. -/
def Passes (track object : Option (Dict Nat KvpValue)) (subgroupId objectId priority : Nat)
    (filters : List (Nat × RangeFilter)) : Prop :=
  ∀ item ∈ filters,
    item.2.Contains (testedValue track object subgroupId objectId priority item.1 item.2)

theorem passes_iff {filters : List (Nat × RangeFilter)} (htypes : ∀ item ∈ filters,
    item.1 ∈ rangeFilters) :
    Passes track object subgroupId objectId priority filters ↔
      (filters.filter (·.1 = trackPropertyFilter)).all (fun item =>
        inRanges item.2 (propertyOf track item.2)) = true ∧
      (filters.filter (·.1 ≠ trackPropertyFilter)).all
        (passesObject subgroupId objectId priority object) = true := by
  simp only [List.all_eq_true, List.mem_filter, decide_eq_true_eq, Passes]
  constructor
  · intro hpass
    constructor
    · rintro item ⟨hmem, htrack⟩
      exact ((tests_iff (htypes item hmem)).mpr (hpass item hmem)).1 htrack
    · rintro item ⟨hmem, hobject⟩
      exact ((tests_iff (htypes item hmem)).mpr (hpass item hmem)).2 hobject
  · rintro ⟨htrack, hobject⟩ item hmem
    exact (tests_iff (htypes item hmem)).mp
      ⟨fun heq => htrack item ⟨hmem, heq⟩, fun hne => hobject item ⟨hmem, hne⟩⟩

/-- The compiled form, at any sets of Range Filters: what the track and then the object
leave is a set of which every filter passes. -/
theorem forTrack_admits_iff {self : RangeFilters}
    (htypes : ∀ filters ∈ self.sets, ∀ item ∈ filters, item.1 ∈ rangeFilters) :
    (∃ kept, self.forTrack track = some kept ∧
        kept.admits subgroupId objectId priority object = true) ↔
      self.sets = [] ∨
        ∃ filters ∈ self.sets, Passes track object subgroupId objectId priority filters := by
  unfold forTrack
  by_cases hnone : self.sets = []
  · simp [hnone, admits]
  rw [if_neg hnone]
  -- the sets the track passes, and what they leave for the objects
  let passed := self.sets.filter fun filters =>
    (filters.filter (·.1 = trackPropertyFilter)).all fun item =>
      inRanges item.2 (propertyOf track item.2)
  let kept := passed.map (·.filter (·.1 ≠ trackPropertyFilter))
  have hpassed : ∀ filters, filters ∈ passed ↔ filters ∈ self.sets ∧
      (filters.filter (·.1 = trackPropertyFilter)).all (fun item =>
        inRanges item.2 (propertyOf track item.2)) = true :=
    fun filters => List.mem_filter
  have hkept : ∀ left, left ∈ kept ↔
      ∃ filters ∈ passed, filters.filter (·.1 ≠ trackPropertyFilter) = left :=
    fun left => List.mem_map
  have hpasses : (∃ filters ∈ self.sets,
      Passes track object subgroupId objectId priority filters) ↔
      ∃ left ∈ kept, left.all (passesObject subgroupId objectId priority object) = true := by
    constructor
    · rintro ⟨filters, hmem, hpass⟩
      obtain ⟨htrack, hobject⟩ := (passes_iff (htypes filters hmem)).mp hpass
      exact ⟨_, (hkept _).mpr ⟨filters, (hpassed filters).mpr ⟨hmem, htrack⟩, rfl⟩, hobject⟩
    · rintro ⟨left, hleft, hobject⟩
      obtain ⟨filters, hfilters, rfl⟩ := (hkept left).mp hleft
      obtain ⟨hmem, htrack⟩ := (hpassed filters).mp hfilters
      exact ⟨filters, hmem, (passes_iff (htypes filters hmem)).mpr ⟨htrack, hobject⟩⟩
  rw [hpasses]
  show (∃ result : RangeFilters,
    (if kept = [] then none else if [] ∈ kept then some {} else some ⟨kept⟩) = some result ∧
      result.admits subgroupId objectId priority object = true) ↔ _
  by_cases hempty : kept = []
  · -- no set admits the track
    simp [hempty, hnone]
  rw [if_neg hempty]
  by_cases hall : [] ∈ kept
  · -- a set of Track Property filters alone passes every object
    rw [if_pos hall]
    constructor
    · intro _
      exact Or.inr ⟨[], hall, rfl⟩
    · intro _
      exact ⟨{}, rfl, by simp [admits]⟩
  · rw [if_neg hall]
    simp [admits, hempty, hnone]

end

/-- Compiling the Range Filters of a request is exact: the track and the object are
admitted if there is no filter with a SetID, or some SetID all of whose filters contain
the value they are tested on. -/
theorem fromParams_exact (params : Option Params) (track object : Option (Dict Nat KvpValue))
    (subgroupId objectId priority : Nat) :
    (∃ kept, (fromParams params).forTrack track = some kept ∧
        kept.admits subgroupId objectId priority object = true) ↔
      (∀ ptype filter, HoldsFilter (params.getD .empty) ptype filter → filter.setId = none) ∨
      ∃ setId,
        (∃ ptype filter, HoldsFilter (params.getD .empty) ptype filter ∧
          filter.setId = some setId) ∧
        ∀ ptype filter, HoldsFilter (params.getD .empty) ptype filter →
          filter.setId = some setId →
            filter.Contains (testedValue track object subgroupId objectId priority ptype filter) := by
  have hitems : ∀ ptype filter, HoldsFilter (params.getD .empty) ptype filter ↔
      (ptype, filter) ∈ rangeFilterItems (params.getD .empty) := by
    intro ptype filter
    rw [mem_rangeFilterItems]
  have htypes : ∀ filters ∈ (fromParams params).sets, ∀ item ∈ filters,
      item.1 ∈ rangeFilters := by
    intro filters hfilters item hitem
    obtain ⟨-, setId, rfl⟩ := mem_sets.mp hfilters
    exact (mem_rangeFilterItems.mp (List.mem_filter.mp hitem).1).1
  have hof : ∀ {setId : Nat} {item : Nat × RangeFilter},
      item ∈ ofSet (rangeFilterItems (params.getD .empty)) setId ↔
        item ∈ rangeFilterItems (params.getD .empty) ∧ item.2.setId = some setId := by
    intro setId item
    simp [ofSet]
  rw [forTrack_admits_iff htypes]
  apply or_congr
  · -- no set: no filter with a SetID
    constructor
    · intro hnone ptype filter hholds
      cases hset : filter.setId with
      | none => rfl
      | some setId =>
          have hmem := hof.mpr ⟨(hitems ptype filter).mp hholds, hset⟩
          have hsets := mem_sets.mpr ⟨List.ne_nil_of_mem hmem, setId, rfl⟩
          simp [hnone] at hsets
    · intro hnone
      rw [List.eq_nil_iff_forall_not_mem]
      intro filters hfilters
      obtain ⟨hne, setId, rfl⟩ := mem_sets.mp hfilters
      obtain ⟨item, hitem⟩ := List.exists_mem_of_ne_nil _ hne
      obtain ⟨hmem, hset⟩ := hof.mp hitem
      have hnot := hnone item.1 item.2 ((hitems _ _).mpr hmem)
      rw [hnot] at hset
      cases hset
  · constructor
    · rintro ⟨filters, hfilters, hpass⟩
      obtain ⟨hne, setId, rfl⟩ := mem_sets.mp hfilters
      obtain ⟨item, hitem⟩ := List.exists_mem_of_ne_nil _ hne
      obtain ⟨hmem, hset⟩ := hof.mp hitem
      refine ⟨setId, ⟨item.1, item.2, (hitems _ _).mpr hmem, hset⟩, ?_⟩
      intro ptype filter hholds hown
      exact hpass (ptype, filter) (hof.mpr ⟨(hitems ptype filter).mp hholds, hown⟩)
    · rintro ⟨setId, ⟨ptype, filter, hholds, hset⟩, hpass⟩
      have hmem := hof.mpr ⟨(hitems ptype filter).mp hholds, hset⟩
      refine ⟨_, mem_sets.mpr ⟨List.ne_nil_of_mem hmem, setId, rfl⟩, ?_⟩
      intro item hitem
      obtain ⟨hfound, hown⟩ := hof.mp hitem
      exact hpass item.1 item.2 ((hitems _ _).mpr hfound) hown

end RangeFilters

end AioMoqt.Messages
