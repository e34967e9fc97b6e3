import Mathlib.Algebra.BigOperators.Group.List.Basic
import Mathlib.Algebra.Ring.Nat
import AioMoqt.Lib.Dict

/-!
# Sums over a dictionary

What the values of a dictionary weigh together, and how a counter that is kept beside the
dictionary follows it: what goes in and what comes out is added and taken away.
-/

namespace AioMoqt.Lib.Dict

variable {κ α : Type} [DecidableEq κ]

/-- `sum(f(v) for v in d.values())`. -/
def total (d : Dict κ α) (f : α → Nat) : Nat := (d.entries.map fun entry => f entry.2).sum

theorem total_erase_some {d : Dict κ α} {k : κ} {v : α} (h : d.get? k = some v) (f : α → Nat) :
    f v + (d.erase k).total f = d.total f := by
  have hperm := (perm_erase h).map fun entry => f entry.2
  unfold total
  rw [hperm.sum_eq, List.map_cons, List.sum_cons]

theorem total_erase_none {d : Dict κ α} {k : κ} (h : d.get? k = none) (f : α → Nat) :
    (d.erase k).total f = d.total f := by
  have hkey : k ∉ d.keys := by
    intro hmem
    exact mem_keys.mp hmem h
  rw [erase_of_notMem hkey]

theorem total_insert (d : Dict κ α) (k : κ) (v : α) (f : α → Nat) :
    (d.insert k v).total f = f v + (d.erase k).total f := by
  have hperm := (perm_insert d k v).map fun entry => f entry.2
  unfold total
  rw [hperm.sum_eq, List.map_cons, List.sum_cons]

/-- A value that weighs what the one before it weighed. -/
theorem total_insert_same {d : Dict κ α} {k : κ} {v w : α} (h : d.get? k = some v)
    {f : α → Nat} (hf : f w = f v) : (d.insert k w).total f = d.total f := by
  rw [total_insert, hf, total_erase_some h]

theorem total_insert_new {d : Dict κ α} {k : κ} (h : d.get? k = none) (v : α) (f : α → Nat) :
    (d.insert k v).total f = f v + d.total f := by
  rw [total_insert, total_erase_none h]

omit [DecidableEq κ] in
theorem total_map {β : Type} (d : Dict κ α) (g : α → β) (f : β → Nat) :
    (d.map g).total f = d.total fun v => f (g v) := by
  unfold total
  rw [entries_map, List.map_map]
  rfl

omit [DecidableEq κ] in
theorem total_add (d : Dict κ α) (f g : α → Nat) :
    (d.total fun v => f v + g v) = d.total f + d.total g := by
  unfold total
  exact List.sum_map_add

omit [DecidableEq κ] in
/-- Only entries that weigh nothing are left out. -/
theorem total_filter {d : Dict κ α} {p : κ → α → Bool} {f : α → Nat}
    (h : ∀ k v, p k v = false → f v = 0) : (d.filter p).total f = d.total f := by
  obtain ⟨entries, hnodup⟩ := d
  show ((entries.filter fun entry => p entry.1 entry.2).map fun entry => f entry.2).sum =
    (entries.map fun entry => f entry.2).sum
  clear hnodup
  induction entries with
  | nil => rfl
  | cons entry entries ih =>
    rw [List.filter_cons, List.map_cons, List.sum_cons]
    cases hp : p entry.1 entry.2 with
    | true =>
      rw [if_pos rfl, List.map_cons, List.sum_cons, ih]
    | false =>
      rw [if_neg Bool.false_ne_true, ih, h entry.1 entry.2 hp, Nat.zero_add]

end AioMoqt.Lib.Dict
