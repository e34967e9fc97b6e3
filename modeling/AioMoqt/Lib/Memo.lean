import Mathlib.Data.List.Basic

/-!
# A capped memo

A table of results that are kept, looked up under keys that count as the same.  As long as it
holds what a function gives, a lookup gives what the function would.
-/

namespace AioMoqt.Lib.Memo

variable {κ α ε : Type}

/-- The first result that is kept under such a key. -/
def lookup (same : κ → κ → Bool) (table : List (κ × α)) (key : κ) : Option α :=
  (table.find? fun entry => same entry.1 key).map Prod.snd

/-- Keep a result, unless the table is full. -/
def store (cap : Nat) (table : List (κ × α)) (key : κ) (value : α) : List (κ × α) :=
  if table.length < cap then table ++ [(key, value)] else table

/-- Every result is one of `f`. -/
def Holds (f : κ → Except ε α) (table : List (κ × α)) : Prop :=
  ∀ entry ∈ table, f entry.1 = .ok entry.2

variable {f : κ → Except ε α} {table : List (κ × α)}

theorem Holds.nil : Holds f [] := fun entry hmem => by cases hmem

theorem Holds.store (h : Holds f table) {key : κ} {value : α} (hvalue : f key = .ok value)
    (cap : Nat) : Holds f (store cap table key value) := by
  unfold Memo.store
  split_ifs
  · intro entry hmem
    rcases List.mem_append.mp hmem with hold | hnew
    · exact h entry hold
    · rw [List.mem_singleton.mp hnew]
      exact hvalue
  · exact h

theorem Holds.lookup (h : Holds f table) {same : κ → κ → Bool}
    (hsame : ∀ a b, same a b = true → f a = f b) {key : κ} {value : α}
    (hfound : lookup same table key = some value) : f key = .ok value := by
  obtain ⟨entry, hentry, rfl⟩ := Option.map_eq_some_iff.mp hfound
  have hmem := List.mem_of_find?_eq_some hentry
  have hkey : same entry.1 key = true :=
    List.find?_some (p := fun entry : κ × α => same entry.1 key) hentry
  rw [← hsame entry.1 key hkey]
  exact h entry hmem

end AioMoqt.Lib.Memo
