import AioMoqt.Lib.Dict

/-!
# Keys that have one owner

A table gives each key its owner, and each owner knows the key that it holds.  An owner takes a
free key or one of another owner, which then holds none, and gives it back at its end.  The two
sides agree at any time, and the history of the table accounts for every key that was taken.
-/

namespace AioMoqt.Lib.Ownership

variable {ι κ : Type} [DecidableEq ι] [DecidableEq κ]

/-- The table and the owners say the same. -/
def Agrees (table : Dict κ ι) (key : ι → Option κ) : Prop :=
  ∀ k i, table.get? k = some i ↔ key i = some k

omit [DecidableEq ι] in
theorem Agrees.empty : Agrees (.empty : Dict κ ι) fun _ => none := by
  intro k i
  constructor
  · intro h
    cases h
  · intro h
    cases h

omit [DecidableEq ι] in
theorem Agrees.congr {table : Dict κ ι} {key key' : ι → Option κ} (h : Agrees table key)
    (hkey : ∀ i, key' i = key i) : Agrees table key' := by
  intro k i
  rw [hkey i]
  exact h k i

/-- An owner gives its key back. -/
theorem Agrees.release {table : Dict κ ι} {key key' : ι → Option κ} (h : Agrees table key)
    {i : ι} {k : κ} (hi : key i = some k)
    (hkey : ∀ j, key' j = if j = i then none else key j) : Agrees (table.erase k) key' := by
  intro k' j
  rw [Dict.get?_erase, hkey j]
  by_cases hj : j = i
  · subst hj
    rw [if_pos rfl]
    constructor
    · intro hget
      split_ifs at hget with hk
      exact absurd (Option.some.inj ((h k' j).mp hget ▸ hi)) hk
    · intro hnone
      cases hnone
  · rw [if_neg hj, ← h k' j]
    constructor
    · intro hget
      split_ifs at hget
      exact hget
    · intro hget
      have hne : k' ≠ k := by
        rintro rfl
        have howner := (h k' i).mpr hi
        rw [hget, Option.some.injEq] at howner
        exact hj howner
      rw [if_neg hne]
      exact hget

/-- An owner without a key takes one, from its owner if it has one. -/
theorem Agrees.take {table : Dict κ ι} {key key' : ι → Option κ} (h : Agrees table key) {i : ι}
    {k : κ}
    (hkey : ∀ j, key' j = if j = i then some k else if key j = some k then none else key j)
    (hi : key i = none) : Agrees (table.insert k i) key' := by
  intro k' j
  rw [Dict.get?_insert, hkey j]
  by_cases hk : k' = k
  · subst hk
    rw [if_pos rfl]
    by_cases hj : j = i
    · subst hj
      simp
    · rw [if_neg hj]
      constructor
      · intro heq
        exact absurd (Option.some.inj heq).symm hj
      · intro heq
        split_ifs at heq with hown
        exact absurd heq hown
  · rw [if_neg hk]
    by_cases hj : j = i
    · subst hj
      rw [if_pos rfl, h k' j, hi]
      constructor
      · intro hnone
        cases hnone
      · intro heq
        exact absurd (Option.some.inj heq).symm hk
    · rw [if_neg hj, h k' j]
      split_ifs with hown
      · rw [hown]
        constructor
        · intro heq
          exact absurd (Option.some.inj heq).symm hk
        · intro hnone
          cases hnone
      · exact Iff.rfl

/-! ## Accounts -/

/-- What happened to a key. -/
inductive Event (ι κ : Type) where
  | taken (i : ι) (k : κ)
  /-- Another owner took it. -/
  | lost (i : ι) (k : κ)
  | ended (i : ι) (k : κ)
deriving Repr, DecidableEq

/-- Every key taken was given back once, or lost, or is held. -/
def Accounts (history : List (Event ι κ)) (key : ι → Option κ) : Prop :=
  ∀ i k, history.count (.taken i k) =
    history.count (.ended i k) + history.count (.lost i k) + if key i = some k then 1 else 0

theorem Accounts.empty : Accounts ([] : List (Event ι κ)) fun _ => none := by
  intro i k
  simp

theorem Accounts.congr {history : List (Event ι κ)} {key key' : ι → Option κ}
    (h : Accounts history key) (hkey : ∀ i, key' i = key i) : Accounts history key' := by
  intro i k
  rw [hkey i]
  exact h i k

/-- An owner gives its key back, or loses it to another. -/
theorem Accounts.release {history : List (Event ι κ)} {key key' : ι → Option κ}
    (h : Accounts history key) {i : ι} {k : κ} (hi : key i = some k)
    (hkey : ∀ j, key' j = if j = i then none else key j) {event : Event ι κ}
    (hevent : event = .ended i k ∨ event = .lost i k) : Accounts (history ++ [event]) key' := by
  intro j k'
  have hcount := h j k'
  rw [hkey j]
  by_cases hj : j = i
  · subst hj
    by_cases hk : k = k'
    · subst hk
      rcases hevent with rfl | rfl
      all_goals
        simp [hi] at hcount ⊢
        omega
    · rcases hevent with rfl | rfl
      all_goals
        simp [hi, hk] at hcount ⊢
        omega
  · have hne : ¬ i = j := fun heq => hj heq.symm
    rcases hevent with rfl | rfl
    all_goals
      simp [hj, hne] at hcount ⊢
      omega

/-- An owner without a key takes a free one. -/
theorem Accounts.take {history : List (Event ι κ)} {key key' : ι → Option κ}
    (h : Accounts history key) {i : ι} {k : κ} (hi : key i = none)
    (hkey : ∀ j, key' j = if j = i then some k else key j) :
    Accounts (history ++ [.taken i k]) key' := by
  intro j k'
  have hcount := h j k'
  rw [hkey j]
  by_cases hj : j = i
  · subst hj
    by_cases hk : k = k'
    · subst hk
      simp [hi] at hcount ⊢
      omega
    · simp [hi, hk] at hcount ⊢
      omega
  · have hne : ¬ i = j := fun heq => hj heq.symm
    simp [hj, hne] at hcount ⊢
    omega

end AioMoqt.Lib.Ownership
