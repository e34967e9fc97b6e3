import Mathlib.Data.List.Count
import Mathlib.Data.List.Dedup
import AioMoqt.Lib.Dict

/-!
# Counters

A dictionary that counts the elements of a list by a key, as elements come and go.  A key
that counts nothing is not in it.
-/

namespace AioMoqt.Lib.Dict

variable {κ α : Type} [DecidableEq κ] {d : Dict κ Int} {f : α → κ} {l l' : List α} {a : α}

/-- `d[k] = d.get(k, 0) + 1`. -/
def countUp (d : Dict κ Int) (k : κ) : Dict κ Int := d.insert k ((d.get? k).getD 0 + 1)

/-- `left = d.pop(k) - 1`, and `d[k] = left` if `left`; nothing where `k` is missing. -/
def countDown (d : Dict κ Int) (k : κ) : Option (Dict κ Int) :=
  (d.get? k).map fun n => if n - 1 = 0 then d.erase k else (d.erase k).insert k (n - 1)

/-- `d` counts the elements of `l` by `f`. -/
def Counts (d : Dict κ Int) (f : α → κ) (l : List α) : Prop :=
  ∀ k, (d.get? k).getD 0 = l.countP (f · = k) ∧ d.get? k ≠ some 0

namespace Counts

theorem nil (f : α → κ) : (empty : Dict κ Int).Counts f [] := by
  intro k
  simp

theorem perm (h : d.Counts f l) (hperm : l.Perm l') : d.Counts f l' := by
  intro k
  rw [← hperm.countP_eq]
  exact h k

theorem get?_eq_none (h : d.Counts f l) {k : κ} :
    d.get? k = none ↔ ∀ a ∈ l, f a ≠ k := by
  obtain ⟨hcount, hzero⟩ := h k
  cases hk : d.get? k with
  | none =>
    simp only [hk, Option.getD_none] at hcount
    have hnone : l.countP (f · = k) = 0 := by omega
    simpa using hnone
  | some n =>
    have hn : n ≠ 0 := by
      rintro rfl
      exact hzero hk
    simp only [hk, Option.getD_some] at hcount
    have hpos : 0 < l.countP (f · = k) := by omega
    simpa using hpos

theorem get?_eq_some (h : d.Counts f l) {k : κ} {n : Int} :
    d.get? k = some n ↔ n = l.countP (f · = k) ∧ n ≠ 0 := by
  obtain ⟨hcount, hzero⟩ := h k
  cases hk : d.get? k with
  | none =>
    simp only [hk, Option.getD_none] at hcount
    simp [← hcount]
  | some m =>
    simp only [hk, Option.getD_some] at hcount
    have hm : m ≠ 0 := fun heq => hzero (by rw [hk, heq])
    rw [Option.some_inj, ← hcount]
    exact ⟨fun heq => heq ▸ ⟨rfl, hm⟩, fun heq => heq.1.symm⟩

theorem mem_keys (h : d.Counts f l) {k : κ} : k ∈ d.keys ↔ ∃ a ∈ l, f a = k := by
  rw [Dict.mem_keys, ne_eq, h.get?_eq_none]
  push Not
  rfl

theorem keys_eq_nil (h : d.Counts f l) : d.keys = [] ↔ l = [] := by
  simp [List.eq_nil_iff_forall_not_mem, h.mem_keys]

theorem countUp (h : d.Counts f l) (a : α) : (d.countUp (f a)).Counts f (a :: l) := by
  intro k
  obtain ⟨hcount, hzero⟩ := h k
  rw [Dict.countUp, get?_insert, List.countP_cons]
  by_cases hk : f a = k
  · subst hk
    rw [if_pos rfl, Option.getD_some, hcount]
    simp
    omega
  · rw [if_neg (Ne.symm hk)]
    simpa [hk] using And.intro hcount hzero

theorem countDown (h : d.Counts f (a :: l)) :
    ∃ d', d.countDown (f a) = some d' ∧ d'.Counts f l := by
  cases hget : d.get? (f a) with
  | none => exact absurd rfl (h.get?_eq_none.mp hget a List.mem_cons_self)
  | some n =>
    refine ⟨if n - 1 = 0 then d.erase (f a) else (d.erase (f a)).insert (f a) (n - 1),
      by rw [Dict.countDown, hget]; rfl, ?_⟩
    intro k
    obtain ⟨hcount, hzero⟩ := h k
    rw [List.countP_cons] at hcount
    by_cases hk : f a = k
    · subst hk
      simp only [hget, Option.getD_some, decide_true, if_true] at hcount
      split <;> simp [get?_insert, get?_erase] <;> omega
    · simp only [hk, decide_false] at hcount
      split <;> simp_all [get?_insert, get?_erase, Ne.symm hk]

/-- Every element of one key goes. -/
theorem erase (h : d.Counts f l) (k : κ) :
    (d.erase k).Counts f (l.filter fun a => f a ≠ k) := by
  intro k'
  obtain ⟨hcount, hzero⟩ := h k'
  rw [get?_erase, List.countP_filter]
  by_cases hk : k' = k
  · subst hk
    simp
  · rw [if_neg hk, hcount]
    refine ⟨?_, hzero⟩
    congr 1
    apply List.countP_congr
    intro a _
    by_cases hak : f a = k' <;> simp [hak, hk]

/-- Fewer elements have no more keys. -/
theorem size_le (h : d.Counts f l) {d' : Dict κ Int} (h' : d'.Counts f l') (hsub : l' ⊆ l) :
    d'.size ≤ d.size := by
  rw [← length_keys, ← length_keys]
  refine (List.subperm_of_subset d'.nodup ?_).length_le
  intro k hk
  obtain ⟨a, ha, hfa⟩ := h'.mem_keys.mp hk
  exact h.mem_keys.mpr ⟨a, hsub ha, hfa⟩

end Counts

end AioMoqt.Lib.Dict
