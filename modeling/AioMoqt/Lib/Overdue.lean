import Mathlib.Algebra.Group.Action.Defs
import Mathlib.Algebra.Order.BigOperators.Group.List
import Mathlib.Algebra.Order.Group.Nat
import Mathlib.Data.Finset.Card
import AioMoqt.Lib.Tally

/-!
# What is missing, and since when

A dictionary of missing items.  Each is noted with the time at which it was noticed, may be
declared lost later, and goes when it turns up; what is not declared yet is counted.
-/

namespace AioMoqt.Lib

/-- When an item was noticed to be missing, and whether it is declared lost. -/
structure Miss where
  detect : Int
  lost : Bool
  deriving DecidableEq, Repr

namespace Miss

/-- One where the item is not declared yet. -/
def undeclared (m : Miss) : Nat := if m.lost then 0 else 1

@[simp] theorem undeclared_lost {m : Miss} (h : m.lost = true) : m.undeclared = 0 := if_pos h

@[simp] theorem undeclared_open {m : Miss} (h : m.lost = false) : m.undeclared = 1 := by
  unfold undeclared
  rw [h, if_neg Bool.false_ne_true]

theorem undeclared_le (m : Miss) : m.undeclared ≤ 1 := by
  unfold undeclared
  split <;> omega

end Miss

namespace Dict

variable {κ : Type} [DecidableEq κ]

/-- Items that are noticed to be missing. -/
def watch (d : Dict κ Miss) (now : Int) (items : List κ) : Dict κ Miss :=
  d.insertAll (items.map fun item => (item, ⟨now, false⟩))

/-- How many are missing without being declared lost. -/
def undeclared (d : Dict κ Miss) : Nat := d.total Miss.undeclared

variable {d : Dict κ Miss} {now : Int} {items : List κ} {k : κ} {m : Miss}

theorem entries_watch (hnodup : items.Nodup) (hnew : ∀ item ∈ items, item ∉ d.keys) :
    (d.watch now items).entries = d.entries ++ items.map fun item => (item, ⟨now, false⟩) := by
  apply insertAll_new
  · rw [List.map_map]
    exact (List.map_id items).symm ▸ hnodup
  · intro entry hentry
    obtain ⟨item, hitem, rfl⟩ := List.mem_map.mp hentry
    exact hnew item hitem

theorem get?_watch (hnodup : items.Nodup) (hnew : ∀ item ∈ items, item ∉ d.keys) :
    (d.watch now items).get? k = if k ∈ items then some ⟨now, false⟩ else d.get? k := by
  apply Option.ext
  intro m
  rw [get?_eq_some, entries_watch hnodup hnew, List.mem_append, List.mem_map]
  split
  next hk =>
    have hold : (k, m) ∉ d.entries := fun hmem => hnew k hk (List.mem_map_of_mem hmem)
    constructor
    · rintro (hmem | ⟨item, -, heq⟩)
      · exact absurd hmem hold
      · exact congrArg some (Prod.mk.inj heq).2
    · intro heq
      exact Or.inr ⟨k, hk, Prod.ext rfl (Option.some.inj heq)⟩
  next hk =>
    rw [get?_eq_some]
    constructor
    · rintro (hmem | ⟨item, hitem, heq⟩)
      · exact hmem
      · exact absurd ((Prod.mk.inj heq).1 ▸ hitem) hk
    · exact Or.inl

theorem mem_keys_watch (hnodup : items.Nodup) (hnew : ∀ item ∈ items, item ∉ d.keys) :
    k ∈ (d.watch now items).keys ↔ k ∈ items ∨ k ∈ d.keys := by
  rw [mem_keys, get?_watch hnodup hnew, mem_keys]
  by_cases hk : k ∈ items
  · simp [hk]
  · rw [if_neg hk, or_iff_right hk]

theorem undeclared_watch (hnodup : items.Nodup) (hnew : ∀ item ∈ items, item ∉ d.keys)
    (now : Int) :
    (d.watch now items).undeclared = d.undeclared + items.length := by
  have hones : ((items.map fun item => (item, (⟨now, false⟩ : Miss))).map
      fun entry => entry.2.undeclared) = List.replicate items.length 1 := by
    rw [List.map_map]
    exact List.map_const'
  unfold undeclared total
  rw [entries_watch hnodup hnew, List.map_append, List.sum_append, hones, List.sum_replicate,
    smul_eq_mul, Nat.mul_one]

/-- An item is declared lost. -/
theorem undeclared_declare (h : d.get? k = some m) (hopen : m.lost = false) :
    (d.insert k { m with lost := true }).undeclared + 1 = d.undeclared := by
  have hinsert := total_insert d k { m with lost := true } Miss.undeclared
  have herase := total_erase_some h Miss.undeclared
  rw [Miss.undeclared_lost rfl] at hinsert
  rw [Miss.undeclared_open hopen] at herase
  unfold undeclared
  omega

/-- An item turns up. -/
theorem undeclared_erase (h : d.get? k = some m) :
    (d.erase k).undeclared + m.undeclared = d.undeclared := by
  have herase := total_erase_some h Miss.undeclared
  unfold undeclared
  omega

theorem size_eq_card {α : Type} (d : Dict κ α) : d.size = d.keys.toFinset.card := by
  rw [List.toFinset_card_of_nodup (show d.keys.Nodup from d.nodup)]
  exact (List.length_map _).symm

omit [DecidableEq κ] in
theorem undeclared_le_size (d : Dict κ Miss) : d.undeclared ≤ d.size := by
  have hone : ∀ n ∈ d.entries.map fun entry => entry.2.undeclared, n ≤ 1 := by
    intro n hn
    obtain ⟨entry, -, rfl⟩ := List.mem_map.mp hn
    exact entry.2.undeclared_le
  have hsum := List.sum_le_card_nsmul _ 1 hone
  rw [List.length_map, smul_eq_mul, Nat.mul_one] at hsum
  exact hsum

theorem undeclared_eq_zero (h : ∀ k m, d.get? k = some m → m.lost = true) : d.undeclared = 0 := by
  apply List.sum_eq_zero
  intro n hn
  obtain ⟨⟨k, m⟩, hmem, rfl⟩ := List.mem_map.mp hn
  exact Miss.undeclared_lost (h k m (get?_eq_some.mpr hmem))

end Dict

end AioMoqt.Lib
