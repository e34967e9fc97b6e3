import Mathlib.Algebra.Order.BigOperators.Group.Finset
import AioMoqt.Stats.Arrivals

/-!
# What arrivals leave noted

An arrival changes the stream of its own key only.  The ids noted in a group are objects of it
that have not arrived, so with those that have they are no more than the group's size.
-/

namespace AioMoqt.Stats

open AioMoqt.Lib AioMoqt.Lib.Strided

namespace SentTrack

variable (tr : SentTrack) {as : List Arrival} {a : Arrival}

theorem ids_concat_same (as : List Arrival) (a : Arrival) :
    tr.ids (as ++ [a]) (tr.key a) = tr.ids as (tr.key a) ++ [a.2] := by
  unfold ids
  rw [List.filter_append, List.map_append, List.filter_cons_of_pos (by simp), List.filter_nil]
  rfl

theorem ids_concat_other (as : List Arrival) {a : Arrival} {key : LossKey} (h : tr.key a ≠ key) :
    tr.ids (as ++ [a]) key = tr.ids as key := by
  unfold ids
  rw [List.filter_append, List.filter_cons_of_neg (by simpa using h), List.filter_nil,
    List.append_nil]

theorem gap_concat_same (as : List Arrival) (a : Arrival) :
    tr.gap (as ++ [a]) (tr.key a) = (tr.gap as (tr.key a)).step a.2 := by
  unfold gap
  rw [ids_concat_same, Tracker.run_concat]

theorem gap_concat_other (as : List Arrival) {a : Arrival} {key : LossKey} (h : tr.key a ≠ key) :
    tr.gap (as ++ [a]) key = tr.gap as key := by
  unfold gap
  rw [ids_concat_other tr as h]

theorem key_fst (a : Arrival) : (tr.key a).1 = a.1 := by
  rw [key_eq]

theorem mem_ids {key : LossKey} {i : Nat} :
    i ∈ tr.ids as key ↔ (key.1, i) ∈ as ∧ i % tr.stripes = key.2 := by
  unfold ids
  rw [List.mem_map]
  constructor
  · rintro ⟨⟨g, j⟩, hmem, rfl⟩
    obtain ⟨has, hkey⟩ := List.mem_filter.mp hmem
    have heq : (g, j % tr.stripes) = key := (tr.key_eq (g, j)).symm.trans
      (of_decide_eq_true hkey)
    rw [← heq]
    exact ⟨has, rfl⟩
  · rintro ⟨hmem, hres⟩
    refine ⟨(key.1, i), List.mem_filter.mpr ⟨hmem, decide_eq_true ?_⟩, rfl⟩
    rw [key_eq, hres]

theorem nodup_ids (h : as.Nodup) (key : LossKey) : (tr.ids as key).Nodup := by
  refine List.Nodup.map_on ?_ (h.filter _)
  intro a ha b hb hab
  have hkey : ∀ c ∈ as.filter (fun a => tr.key a = key), c.1 = key.1 := by
    intro c hc
    have heq : tr.key c = key := of_decide_eq_true (List.mem_filter.mp hc).2
    rw [← heq, key_fst]
  exact Prod.ext ((hkey a ha).trans (hkey b hb).symm) hab

theorem tracks (h : as.Nodup) (key : LossKey) :
    Tracker.Tracks tr.stripes key.2 (tr.gap as key) (tr.ids as key) :=
  Tracker.tracks_run (fun _ hi => ((tr.mem_ids).mp hi).2) (tr.nodup_ids h key)

/-! ## The ids of a group -/

theorem mem_noted {g oid : Nat} :
    oid ∈ tr.noted as g ↔ oid < tr.size ∧ oid ∈ (tr.gap as (tr.key (g, oid))).missing := by
  rw [noted, Finset.mem_filter, Finset.mem_range]

theorem noted_concat_other (as : List Arrival) {a : Arrival} {g : Nat} (h : a.1 ≠ g) :
    tr.noted (as ++ [a]) g = tr.noted as g := by
  unfold noted
  apply Finset.filter_congr
  intro oid _
  have hkey : tr.key a ≠ tr.key (g, oid) := by
    intro heq
    apply h
    rw [← tr.key_fst a, heq, key_fst]
  rw [gap_concat_other tr as hkey]

/-- An arrival is no longer missing, and what it passes over is. -/
theorem noted_concat (h : (as ++ [a]).Nodup) (hsize : a.2 < tr.size) :
    tr.noted (as ++ [a]) a.1 =
      (tr.noted as a.1 ∪ ((tr.gap as (tr.key a)).passed a.2).toFinset).erase a.2 := by
  obtain ⟨hold, -, -⟩ := List.nodup_append.mp h
  have htracks := tr.tracks hold (tr.key a)
  have hpassed : ∀ oid ∈ (tr.gap as (tr.key a)).passed a.2,
      oid < tr.size ∧ tr.key (a.1, oid) = tr.key a := by
    intro oid hoid
    obtain ⟨hlt, hres, -⟩ := htracks.mem_passed hoid
    refine ⟨hlt.trans hsize, ?_⟩
    rw [key_eq, hres, ← tr.key_fst a]
  ext oid
  rw [mem_noted, Finset.mem_erase, Finset.mem_union, mem_noted, List.mem_toFinset]
  by_cases hkey : tr.key (a.1, oid) = tr.key a
  · rw [hkey, gap_concat_same, Tracker.mem_missing_step]
    constructor
    · rintro ⟨hlt, hne, hmem⟩
      exact ⟨hne, hmem.imp (fun hmem => ⟨hlt, hmem⟩) id⟩
    · rintro ⟨hne, ⟨hlt, hmem⟩ | hmem⟩
      · exact ⟨hlt, hne, .inl hmem⟩
      · exact ⟨(hpassed oid hmem).1, hne, .inr hmem⟩
  · rw [gap_concat_other tr as (Ne.symm hkey)]
    constructor
    · rintro ⟨hlt, hmem⟩
      refine ⟨?_, .inl ⟨hlt, hmem⟩⟩
      rintro rfl
      exact hkey rfl
    · rintro ⟨-, ⟨hlt, hmem⟩ | hmem⟩
      · exact ⟨hlt, hmem⟩
      · exact absurd (hpassed oid hmem).2 hkey

/-- How many are noted: one less where the arrival was, and those that it passes over. -/
theorem card_noted_concat (h : (as ++ [a]).Nodup) (hsize : a.2 < tr.size) :
    (tr.noted (as ++ [a]) a.1).card + (if a.2 ∈ (tr.gap as (tr.key a)).missing then 1 else 0) =
      (tr.noted as a.1).card + ((tr.gap as (tr.key a)).passed a.2).length := by
  obtain ⟨hold, -, -⟩ := List.nodup_append.mp h
  have htracks := tr.tracks hold (tr.key a)
  rw [tr.noted_concat h hsize]
  by_cases hmissing : a.2 ∈ (tr.gap as (tr.key a)).missing
  · have hmem : a.2 ∈ tr.noted as a.1 := tr.mem_noted.mpr ⟨hsize, hmissing⟩
    rw [if_pos hmissing, htracks.passed_of_missing hmissing, List.toFinset_nil, Finset.union_empty,
      Finset.card_erase_of_mem hmem, List.length_nil]
    have hpos : 0 < (tr.noted as a.1).card := Finset.card_pos.mpr ⟨_, hmem⟩
    omega
  · have hnot : a.2 ∉ tr.noted as a.1 ∪ ((tr.gap as (tr.key a)).passed a.2).toFinset := by
      rw [Finset.mem_union, mem_noted, List.mem_toFinset]
      rintro (⟨-, hmem⟩ | hmem)
      · exact hmissing hmem
      · exact absurd (htracks.mem_passed hmem).1 (lt_irrefl _)
    have hdisjoint : Disjoint (tr.noted as a.1)
        ((tr.gap as (tr.key a)).passed a.2).toFinset := by
      rw [Finset.disjoint_left]
      intro oid hmem hpassed
      rw [List.mem_toFinset] at hpassed
      have hkey : tr.key (a.1, oid) = tr.key a := by
        rw [key_eq, (htracks.mem_passed hpassed).2.1, ← tr.key_fst a]
      have hmem := (tr.mem_noted.mp hmem).2
      rw [hkey] at hmem
      exact htracks.passed_fresh hpassed hmem
    rw [if_neg hmissing, Finset.erase_eq_of_notMem hnot, Finset.card_union_of_disjoint hdisjoint,
      List.toFinset_card_of_nodup (htracks.nodup_passed _), Nat.add_zero]

/-- What is out: as with the group of the arrival. -/
theorem outstanding_concat (h : (as ++ [a]).Nodup) (hsize : a.2 < tr.size)
    (hgroup : a.1 ∈ tr.groups) :
    tr.outstanding (as ++ [a]) + (if a.2 ∈ (tr.gap as (tr.key a)).missing then 1 else 0) =
      tr.outstanding as + ((tr.gap as (tr.key a)).passed a.2).length := by
  have hothers : ∑ g ∈ tr.groups.erase a.1, (tr.noted (as ++ [a]) g).card =
      ∑ g ∈ tr.groups.erase a.1, (tr.noted as g).card := by
    apply Finset.sum_congr rfl
    intro g hg
    rw [noted_concat_other tr as (Finset.ne_of_mem_erase hg).symm]
  have hown := tr.card_noted_concat h hsize
  unfold outstanding
  rw [← Finset.add_sum_erase _ _ hgroup, ← Finset.add_sum_erase _ _ hgroup, hothers]
  omega

/-- What is noted has not arrived. -/
theorem noted_apart (h : as.Nodup) {g oid : Nat} (hmem : (g, oid) ∈ as) : oid ∉ tr.noted as g := by
  intro hnoted
  refine (tr.tracks h (tr.key (g, oid))).apart oid ?_ (tr.mem_noted.mp hnoted).2
  rw [mem_ids, key_eq]
  exact ⟨hmem, rfl⟩

end SentTrack

/-- Nothing is noted in a group that nothing arrived of. -/
theorem SentTrack.noted_of_none (tr : SentTrack) {as : List Arrival} {g : Nat}
    (h : ∀ b ∈ as, b.1 ≠ g) : tr.noted as g = ∅ := by
  rw [Finset.eq_empty_iff_forall_notMem]
  intro oid hoid
  have hids : tr.ids as (tr.key (g, oid)) = [] := by
    rw [List.eq_nil_iff_forall_not_mem]
    intro i hi
    have hmem := (tr.mem_ids.mp hi).1
    rw [tr.key_fst] at hmem
    exact h _ hmem rfl
  have hmissing := (tr.mem_noted.mp hoid).2
  rw [SentTrack.gap, hids] at hmissing
  exact absurd hmissing (Finset.notMem_empty oid)

theorem arrived_of_none {as : List Arrival} {g : Nat} (h : ∀ b ∈ as, b.1 ≠ g) : arrived as g = 0 := by
  rw [arrived, List.countP_eq_zero]
  exact fun b hb => by simpa using h b hb

/-- The arrivals of a group, as ids. -/
theorem card_arrived {as : List Arrival} (h : as.Nodup) (g : Nat) :
    ((as.filter fun a => a.1 = g).map Prod.snd).toFinset.card = arrived as g := by
  rw [List.toFinset_card_of_nodup, List.length_map, arrived, List.countP_eq_length_filter]
  refine List.Nodup.map_on ?_ (h.filter _)
  intro a ha b hb hab
  have hgroup : ∀ c ∈ as.filter (fun a => a.1 = g), c.1 = g := fun c hc =>
    of_decide_eq_true (List.mem_filter.mp hc).2
  exact Prod.ext ((hgroup a ha).trans (hgroup b hb).symm) hab

theorem arrived_concat (as : List Arrival) (a : Arrival) (g : Nat) :
    arrived (as ++ [a]) g = arrived as g + if a.1 = g then 1 else 0 := by
  unfold arrived
  rw [List.countP_append, List.countP_singleton]
  simp

/-- The ids noted in a group and those that arrived are among its objects. -/
theorem SentTrack.noted_add_arrived (tr : SentTrack) {as : List Arrival} (h : as.Nodup)
    (hsize : ∀ a ∈ as, a.2 < tr.size) (g : Nat) :
    (tr.noted as g).card + arrived as g ≤ tr.size := by
  set came := ((as.filter fun a => a.1 = g).map Prod.snd).toFinset with hcame
  have hmem : ∀ oid ∈ came, (g, oid) ∈ as := by
    intro oid hoid
    rw [hcame, List.mem_toFinset, List.mem_map] at hoid
    obtain ⟨⟨g', oid'⟩, hfilter, rfl⟩ := hoid
    obtain ⟨has, hg⟩ := List.mem_filter.mp hfilter
    obtain rfl : g' = g := of_decide_eq_true hg
    exact has
  have hdisjoint : Disjoint (tr.noted as g) came := by
    rw [Finset.disjoint_left]
    exact fun oid hnoted hoid => tr.noted_apart h (hmem oid hoid) hnoted
  have hsub : tr.noted as g ∪ came ⊆ Finset.range tr.size := by
    intro oid hoid
    rw [Finset.mem_range]
    rcases Finset.mem_union.mp hoid with hoid | hoid
    · exact (tr.mem_noted.mp hoid).1
    · exact hsize _ (hmem oid hoid)
  have hcard := Finset.card_le_card hsub
  rwa [Finset.card_union_of_disjoint hdisjoint, card_arrived h, Finset.card_range] at hcard

end AioMoqt.Stats
