import Mathlib.Data.Finset.Card
import Mathlib.Data.Finset.Range

/-!
# Tables

Partial maps from numbers to records, of which one entry is exchanged at a time: what
holds of each entry, what holds of every two, and how many entries have a property.
-/

namespace AioMoqt.Lib.Table

variable {α : Type*} {P Q : α → Prop} {R : α → α → Prop} {p : α → Bool}
  {table table' : Nat → Option α} {i n : Nat} {x x' : α}

/-- `P` holds of each entry. -/
def Each (P : α → Prop) (table : Nat → Option α) : Prop := ∀ i x, table i = some x → P x

/-- `R` holds of every two entries. -/
def Pairs (R : α → α → Prop) (table : Nat → Option α) : Prop :=
  ∀ i j x y, table i = some x → table j = some y → i ≠ j → R x y

/-- How many of the first `n` entries have the property. -/
def count (p : α → Bool) (n : Nat) (table : Nat → Option α) : Nat :=
  ((Finset.range n).filter fun i => (table i).any p).card

theorem update_eq_some {y : Option α} {j : Nat} {z : α}
    (h : Function.update table i y j = some z) :
    j = i ∧ y = some z ∨ j ≠ i ∧ table j = some z := by
  by_cases hj : j = i
  · subst hj
    rw [Function.update_self] at h
    exact Or.inl ⟨rfl, h⟩
  · rw [Function.update_of_ne hj] at h
    exact Or.inr ⟨hj, h⟩

/-! ## Each entry -/

theorem Each.mono (h : Each P table) (himp : ∀ x, P x → Q x) : Each Q table :=
  fun i x hx => himp x (h i x hx)

theorem Each.update (h : Each P table) (hx : P x) :
    Each P (Function.update table i (some x)) := by
  intro j y hy
  obtain ⟨-, heq⟩ | ⟨-, hy⟩ := update_eq_some hy
  · obtain rfl := Option.some.inj heq
    exact hx
  · exact h j y hy

/-- The entry in hand is replaced by another. -/
theorem Each.exchange (h : Each P (Function.update table i (some x))) (hx : P x') :
    Each P (Function.update table i (some x')) := by
  have hupd := h.update (i := i) hx
  rwa [Function.update_idem] at hupd

theorem Each.erase (h : Each P table) : Each P (Function.update table i none) := by
  intro j y hy
  obtain ⟨-, heq⟩ | ⟨-, hy⟩ := update_eq_some hy
  · simp at heq
  · exact h j y hy

theorem Each.drop (h : Each P (Function.update table i (some x))) :
    Each P (Function.update table i none) := by
  have herase := h.erase (i := i)
  rwa [Function.update_idem] at herase

theorem Each.inHand (h : Each P (Function.update table i (some x))) : P x :=
  h i x (Function.update_self ..)

/-! ## Every two entries -/

/-- The entry in hand is replaced by one that is related to no fewer. -/
theorem Pairs.exchange (h : Pairs R (Function.update table i (some x)))
    (hleft : ∀ j y, table j = some y → j ≠ i → R x y → R x' y)
    (hright : ∀ j y, table j = some y → j ≠ i → R y x → R y x') :
    Pairs R (Function.update table i (some x')) := by
  intro j j' y y' hy hy' hne
  have hself : Function.update table i (some x) i = some x := Function.update_self ..
  obtain ⟨rfl, heq⟩ | ⟨hj, hother⟩ := update_eq_some hy
  · obtain rfl := Option.some.inj heq
    obtain ⟨rfl, -⟩ | ⟨hj', hy'⟩ := update_eq_some hy'
    · exact absurd rfl hne
    · exact hleft j' y' hy' hj' (h j j' x y' hself (by rwa [Function.update_of_ne hj']) hne)
  · have hold : Function.update table i (some x) j = some y := by rwa [Function.update_of_ne hj]
    obtain ⟨rfl, heq⟩ | ⟨hj', hy'⟩ := update_eq_some hy'
    · obtain rfl := Option.some.inj heq
      exact hright j y hother hj (h j j' y x hold hself hne)
    · exact h j j' y y' hold (by rwa [Function.update_of_ne hj']) hne

theorem Pairs.erase (h : Pairs R table) : Pairs R (Function.update table i none) := by
  intro j j' y y' hy hy' hne
  obtain ⟨-, heq⟩ | ⟨-, hy⟩ := update_eq_some hy
  · simp at heq
  · obtain ⟨-, heq⟩ | ⟨-, hy'⟩ := update_eq_some hy'
    · simp at heq
    · exact h j j' y y' hy hy' hne

theorem Pairs.drop (h : Pairs R (Function.update table i (some x))) :
    Pairs R (Function.update table i none) := by
  have herase := h.erase (i := i)
  rwa [Function.update_idem] at herase

/-! ## Counting -/

/-- A table in which no more entries count. -/
theorem count_mono {n' : Nat} (h : ∀ i y, i < n' → table' i = some y → p y = true →
    i < n ∧ ∃ z, table i = some z ∧ p z = true) : count p n' table' ≤ count p n table := by
  apply Finset.card_le_card
  intro i hi
  simp only [Finset.mem_filter, Finset.mem_range, Option.any_eq_true] at hi ⊢
  obtain ⟨hlt, y, hy, hp⟩ := hi
  exact h i y hlt hy hp

/-- The entry in hand is replaced by one that counts only if it did. -/
theorem count_exchange_le (h : p x' = true → p x = true) :
    count p n (Function.update table i (some x')) ≤ count p n (Function.update table i (some x)) := by
  apply count_mono
  intro j y hlt hy hp
  refine ⟨hlt, ?_⟩
  obtain ⟨rfl, heq⟩ | ⟨hj, hy⟩ := update_eq_some hy
  · obtain rfl := Option.some.inj heq
    exact ⟨x, Function.update_self .., h hp⟩
  · exact ⟨y, by rwa [Function.update_of_ne hj], hp⟩

theorem count_drop_le :
    count p n (Function.update table i none) ≤ count p n (Function.update table i (some x)) := by
  apply count_mono
  intro j y hlt hy hp
  refine ⟨hlt, ?_⟩
  obtain ⟨-, heq⟩ | ⟨hj, hy⟩ := update_eq_some hy
  · simp at heq
  · exact ⟨y, by rwa [Function.update_of_ne hj], hp⟩

/-- The entry in hand no longer counts. -/
theorem count_release (hi : i < n) (hx : p x = true) (hx' : p x' = false) :
    count p n (Function.update table i (some x')) + 1 =
      count p n (Function.update table i (some x)) := by
  have hself : i ∈ (Finset.range n).filter fun j =>
      (Function.update table i (some x) j).any p := by
    simp [hi, hx]
  have herase : ((Finset.range n).filter fun j => (Function.update table i (some x') j).any p) =
      ((Finset.range n).filter fun j => (Function.update table i (some x) j).any p).erase i := by
    ext j
    by_cases hj : j = i
    · subst hj
      simp [hx']
    · simp [hj]
  rw [count, herase]
  exact Finset.card_erase_add_one hself

theorem count_eq_zero (h : ∀ i x, table i = some x → p x = false) : count p n table = 0 := by
  rw [count, Finset.card_eq_zero, Finset.filter_eq_empty_iff]
  intro i _ hany
  obtain ⟨x, hx, hp⟩ := (Option.any_eq_true ..).mp hany
  simp [h i x hx] at hp

theorem not_of_count_eq_zero (h : count p n table = 0) (hi : i < n) (hx : table i = some x) :
    p x = false := by
  rw [count, Finset.card_eq_zero, Finset.filter_eq_empty_iff] at h
  have hnot := h (Finset.mem_range.mpr hi)
  simpa [hx] using hnot

end AioMoqt.Lib.Table
