import Mathlib.Data.Finset.Card
import Mathlib.Data.Finset.Image
import Mathlib.Data.List.Nodup

/-!
# Ascending ids with a stride

Ids of one stream come in ascending order, each a stride behind the one before it.  The stride
is learned from the first two in order; an id that is further ahead passes over those between,
and they are missing until they come late.
-/

namespace AioMoqt.Lib.Strided

/-- The numbers from `lo` on, a stride apart, that are below `hi`. -/
def strideRange (lo hi stride : Nat) : List Nat :=
  (List.range ((hi - lo + stride - 1) / stride)).map fun i => lo + stride * i

theorem mem_strideRange {lo hi stride i : Nat} (hstride : 0 < stride) :
    i ∈ strideRange lo hi stride ↔ ∃ j, i = lo + stride * j ∧ i < hi := by
  rw [strideRange, List.mem_map]
  constructor
  · rintro ⟨j, hj, rfl⟩
    refine ⟨j, rfl, ?_⟩
    rw [List.mem_range, Nat.lt_div_iff_mul_lt hstride] at hj
    rw [Nat.mul_comm stride j]
    omega
  · rintro ⟨j, rfl, hlt⟩
    refine ⟨j, ?_, rfl⟩
    rw [List.mem_range, Nat.lt_div_iff_mul_lt hstride]
    rw [Nat.mul_comm stride j] at hlt
    omega

theorem nodup_strideRange {lo hi stride : Nat} (hstride : 0 < stride) :
    (strideRange lo hi stride).Nodup := by
  refine List.Nodup.map ?_ List.nodup_range
  intro i j hij
  have heq : stride * i = stride * j := Nat.add_left_cancel hij
  exact Nat.eq_of_mul_eq_mul_left hstride heq

theorem strideRange_nil {lo hi stride : Nat} (hstride : 0 < stride) (h : hi ≤ lo) :
    strideRange lo hi stride = [] := by
  have hzero : (hi - lo + stride - 1) / stride = 0 := Nat.div_eq_of_lt (by omega)
  rw [strideRange, hzero, List.range_zero, List.map_nil]

/-- Where the stride divides the distance, so many ids lie between. -/
theorem length_strideRange {prev i stride : Nat} (hstride : 0 < stride) (hdvd : stride ∣ i - prev) :
    (strideRange (prev + stride) i stride).length = (i - prev - stride) / stride := by
  obtain ⟨m, hm⟩ := hdvd
  rw [strideRange, List.length_map, List.length_range]
  cases m with
  | zero =>
      have hle : i ≤ prev := by omega
      rw [Nat.div_eq_of_lt (by omega), Nat.div_eq_of_lt (by omega)]
  | succ m =>
      have hspan : i - prev - stride = stride * m := by
        rw [hm, Nat.mul_succ, Nat.add_sub_cancel]
      have hspan' : i - (prev + stride) + stride - 1 = stride * m + (stride - 1) := by omega
      rw [hspan, hspan', Nat.mul_add_div hstride, Nat.div_eq_of_lt (by omega),
        Nat.mul_div_cancel_left _ hstride, Nat.add_zero]

/-- The stride of a stream is the distance of its first two ids in order. -/
def learnStride (stride : Option Nat) (prev i : Nat) : Option Nat :=
  match stride with
  | some stride => some stride
  | none => if prev < i then some (i - prev) else none

/-- The greatest id that came, the stride, and the ids that were passed over. -/
structure Tracker where
  prev : Option Nat := none
  stride : Option Nat := none
  missing : Finset Nat := ∅
  deriving DecidableEq

namespace Tracker

/-- The ids that the next one passes over. -/
def passed (x : Tracker) (i : Nat) : List Nat :=
  match x.prev, x.stride with
  | some prev, some stride => strideRange (prev + stride) i stride
  | _, _ => []

def step (x : Tracker) (i : Nat) : Tracker where
  prev := match x.prev with
    | none => some i
    | some prev => some (if prev < i then i else prev)
  stride := match x.prev with
    | none => x.stride
    | some prev => learnStride x.stride prev i
  missing := (x.missing ∪ (x.passed i).toFinset).erase i

def run (is : List Nat) : Tracker := is.foldl step {}

theorem run_concat (is : List Nat) (i : Nat) : run (is ++ [i]) = (run is).step i :=
  List.foldl_concat _ _ _ _

/-- The next id is a whole number of strides behind the greatest. -/
def WholeStride (x : Tracker) (i : Nat) : Prop :=
  ∀ prev ∈ x.prev, ∀ stride ∈ x.stride, prev + stride < i → stride ∣ i - prev

instance (x : Tracker) (i : Nat) : Decidable (x.WholeStride i) :=
  inferInstanceAs (Decidable (∀ prev ∈ x.prev, ∀ stride ∈ x.stride, _))

/-- What a tracker says of the ids that came: they are congruent, and so are those that are
missing. -/
structure Tracks (n r : Nat) (x : Tracker) (is : List Nat) : Prop where
  none_of_prev : x.prev = none → is = [] ∧ x.stride = none
  greatest : ∀ prev, x.prev = some prev → prev % n = r ∧ ∀ i ∈ is, i ≤ prev
  stride : ∀ stride, x.stride = some stride → 0 < stride ∧ n ∣ stride
  learned : x.stride = none → x.missing = ∅
  below : ∀ i ∈ x.missing, ∃ prev, x.prev = some prev ∧ i < prev
  apart : ∀ i ∈ is, i ∉ x.missing
  residue : ∀ i ∈ x.missing, i % n = r

variable {n r : Nat} {x : Tracker} {is : List Nat}

theorem tracks_nil : Tracks n r {} [] where
  none_of_prev := fun _ => ⟨rfl, rfl⟩
  greatest := nofun
  stride := nofun
  learned := fun _ => rfl
  below := fun _ hi => absurd hi (Finset.notMem_empty _)
  apart := fun _ hi => absurd hi List.not_mem_nil
  residue := fun _ hi => absurd hi (Finset.notMem_empty _)

theorem passed_eq {prev stride : Nat} (hprev : x.prev = some prev)
    (hstride : x.stride = some stride) (i : Nat) :
    x.passed i = strideRange (prev + stride) i stride := by
  rw [passed, hprev, hstride]

theorem passed_prev_none (hprev : x.prev = none) (i : Nat) : x.passed i = [] := by
  rw [passed, hprev]

theorem passed_stride_none (hstride : x.stride = none) (i : Nat) : x.passed i = [] := by
  unfold passed
  rw [hstride]
  cases x.prev <;> rfl

/-- Ids are passed over between the greatest and the next one, of the residue of both. -/
theorem Tracks.mem_passed (h : Tracks n r x is) {i j : Nat} (hj : j ∈ x.passed i) :
    j < i ∧ j % n = r ∧ ∃ prev, x.prev = some prev ∧ prev < j := by
  cases hprev : x.prev with
  | none =>
      rw [passed_prev_none hprev] at hj
      exact absurd hj List.not_mem_nil
  | some prev =>
      cases hstride : x.stride with
      | none =>
          rw [passed_stride_none hstride] at hj
          exact absurd hj List.not_mem_nil
      | some stride =>
          obtain ⟨hpos, hdvd⟩ := h.stride stride hstride
          rw [passed_eq hprev hstride, mem_strideRange hpos] at hj
          obtain ⟨m, rfl, hlt⟩ := hj
          refine ⟨hlt, ?_, prev, rfl, by omega⟩
          have hmul : n ∣ stride + stride * m := Nat.dvd_add hdvd (Nat.dvd_mul_right_of_dvd hdvd m)
          obtain ⟨c, hc⟩ := hmul
          rw [Nat.add_assoc, hc, Nat.add_mul_mod_self_left]
          exact (h.greatest prev hprev).1

theorem Tracks.nodup_passed (h : Tracks n r x is) (i : Nat) : (x.passed i).Nodup := by
  cases hprev : x.prev with
  | none =>
      rw [passed_prev_none hprev]
      exact List.nodup_nil
  | some prev =>
      cases hstride : x.stride with
      | none =>
          rw [passed_stride_none hstride]
          exact List.nodup_nil
      | some stride =>
          rw [passed_eq hprev hstride]
          exact nodup_strideRange (h.stride stride hstride).1

theorem Tracks.passed_fresh (h : Tracks n r x is) {i j : Nat} (hj : j ∈ x.passed i) :
    j ∉ x.missing := by
  intro hmissing
  obtain ⟨-, -, prev, hprev, hlt⟩ := h.mem_passed hj
  obtain ⟨prev', hprev', hlt'⟩ := h.below j hmissing
  rw [hprev] at hprev'
  cases hprev'
  omega

/-- A late id passes nothing over. -/
theorem Tracks.passed_of_missing (h : Tracks n r x is) {i : Nat} (hi : i ∈ x.missing) :
    x.passed i = [] := by
  obtain ⟨prev, hprev, hlt⟩ := h.below i hi
  rw [List.eq_nil_iff_forall_not_mem]
  intro j hj
  obtain ⟨hji, -, prev', hprev', hlt'⟩ := h.mem_passed hj
  rw [hprev] at hprev'
  cases hprev'
  omega

/-- What is missing after the next id: one less where it was missing, and what it passes over. -/
theorem mem_missing_step (x : Tracker) {i j : Nat} :
    j ∈ (x.step i).missing ↔ j ≠ i ∧ (j ∈ x.missing ∨ j ∈ x.passed i) := by
  unfold Tracker.step
  rw [Finset.mem_erase, Finset.mem_union, List.mem_toFinset]

theorem Tracks.stepped (h : Tracks n r x is) {i : Nat} (hi : i % n = r) (hnew : i ∉ is) :
    Tracks n r (x.step i) (is ++ [i]) := by
  have hmissing : ∀ j ∈ (x.step i).missing, j ≠ i ∧ (j ∈ x.missing ∨ j ∈ x.passed i) :=
    fun j hj => (mem_missing_step x).mp hj
  constructor
  case none_of_prev =>
    intro hnone
    unfold Tracker.step at hnone
    cases hprev : x.prev <;> simp [hprev] at hnone
  case greatest =>
    intro prev' hprev'
    unfold Tracker.step at hprev'
    cases hprev : x.prev with
    | none =>
        simp only [hprev, Option.some.injEq] at hprev'
        subst hprev'
        rw [(h.none_of_prev hprev).1]
        exact ⟨hi, fun j hj => (List.mem_singleton.mp hj).le⟩
    | some prev =>
        simp only [hprev, Option.some.injEq] at hprev'
        obtain ⟨hres, hle⟩ := h.greatest prev hprev
        subst hprev'
        refine ⟨by split_ifs; exacts [hi, hres], fun j hj => ?_⟩
        rcases List.mem_append.mp hj with hj | hj
        · have := hle j hj
          split_ifs <;> omega
        · obtain rfl := List.mem_singleton.mp hj
          split_ifs <;> omega
  case stride =>
    intro stride' hstride'
    unfold Tracker.step at hstride'
    cases hprev : x.prev with
    | none =>
        simp only [hprev] at hstride'
        exact h.stride stride' hstride'
    | some prev =>
        simp only [hprev] at hstride'
        cases hstride : x.stride with
        | some stride =>
            rw [hstride, learnStride] at hstride'
            cases hstride'
            exact h.stride _ hstride
        | none =>
            rw [hstride, learnStride] at hstride'
            split_ifs at hstride' with hlt
            cases hstride'
            have hmod : prev % n = i % n := (h.greatest prev hprev).1.trans hi.symm
            exact ⟨by omega, Nat.dvd_of_mod_eq_zero (Nat.sub_mod_eq_zero_of_mod_eq hmod.symm)⟩
  case learned =>
    intro hnone
    have hold : x.stride = none := by
      unfold Tracker.step at hnone
      cases hprev : x.prev with
      | none => exact (h.none_of_prev hprev).2
      | some prev =>
          simp only [hprev] at hnone
          cases hstride : x.stride with
          | none => rfl
          | some stride => rw [hstride, learnStride] at hnone; cases hnone
    unfold Tracker.step
    rw [h.learned hold, passed_stride_none hold]
    rfl
  case below =>
    intro j hj
    obtain ⟨-, hj⟩ := hmissing j hj
    unfold Tracker.step
    rcases hj with hj | hj
    · obtain ⟨prev, hprev, hlt⟩ := h.below j hj
      refine ⟨if prev < i then i else prev, by simp only [hprev], ?_⟩
      split_ifs <;> omega
    · obtain ⟨hlt, -, prev, hprev, hgt⟩ := h.mem_passed hj
      refine ⟨if prev < i then i else prev, by simp only [hprev], ?_⟩
      split_ifs <;> omega
  case apart =>
    intro j hj hmem
    obtain ⟨hne, hmem⟩ := hmissing j hmem
    have hold : j ∈ is := (List.mem_append.mp hj).resolve_right fun hj =>
      hne (List.mem_singleton.mp hj)
    rcases hmem with hmem | hmem
    · exact h.apart j hold hmem
    · obtain ⟨-, -, prev, hprev, hgt⟩ := h.mem_passed hmem
      have hle := (h.greatest prev hprev).2 j hold
      omega
  case residue =>
    intro j hj
    obtain ⟨-, hj⟩ := hmissing j hj
    rcases hj with hj | hj
    · exact h.residue j hj
    · exact (h.mem_passed hj).2.1

theorem tracks_run {is : List Nat} (hres : ∀ i ∈ is, i % n = r) (hnodup : is.Nodup) :
    Tracks n r (run is) is := by
  induction is using List.reverseRecOn with
  | nil => exact tracks_nil
  | append_singleton is i ih =>
      obtain ⟨hfst, -, hapart⟩ := List.nodup_append.mp hnodup
      rw [run_concat]
      refine (ih (fun j hj => hres j (List.mem_append_left _ hj)) hfst).stepped
        (hres i (List.mem_append_right _ (List.mem_singleton_self i))) fun hmem => ?_
      exact hapart i hmem i (List.mem_singleton_self i) rfl

end Tracker

end AioMoqt.Lib.Strided
