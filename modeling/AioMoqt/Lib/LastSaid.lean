import Mathlib.Data.List.Basic

/-!
# What was said last

A log of values said under keys: the last value of a key, and logs in which a value that takes
another back is said only behind that other.
-/

namespace AioMoqt.Lib

variable {κ β : Type} [DecidableEq κ]

/-- The last value said under a key. -/
def lastSaid : List (κ × β) → κ → Option β
  | [], _ => none
  | (k', v) :: log, k => (lastSaid log k).or (if k' = k then some v else none)

@[simp] theorem lastSaid_nil (k : κ) : lastSaid ([] : List (κ × β)) k = none := rfl

theorem lastSaid_append (log batch : List (κ × β)) (k : κ) :
    lastSaid (log ++ batch) k = (lastSaid batch k).or (lastSaid log k) := by
  induction log with
  | nil => rw [List.nil_append, lastSaid_nil, Option.or_none]
  | cons entry log ih =>
      obtain ⟨k', v⟩ := entry
      rw [List.cons_append, lastSaid, lastSaid, ih, Option.or_assoc]

theorem lastSaid_concat (log : List (κ × β)) (k' : κ) (v : β) (k : κ) :
    lastSaid (log ++ [(k', v)]) k = if k' = k then some v else lastSaid log k := by
  rw [lastSaid_append]
  by_cases h : k' = k
  · rw [if_pos h, lastSaid, if_pos h]
    rfl
  · rw [if_neg h, lastSaid, if_neg h]
    rfl

/-- A batch that says one thing says it last under its keys. -/
theorem lastSaid_const {batch : List (κ × β)} {v : β} (h : ∀ entry ∈ batch, entry.2 = v) (k : κ) :
    lastSaid batch k = if k ∈ batch.map Prod.fst then some v else none := by
  induction batch with
  | nil => rfl
  | cons entry batch ih =>
      obtain ⟨k', w⟩ := entry
      obtain rfl : w = v := h _ List.mem_cons_self
      rw [lastSaid, ih fun entry hentry => h entry (List.mem_cons_of_mem _ hentry), List.map_cons]
      by_cases hbatch : k ∈ batch.map Prod.fst
      · rw [if_pos hbatch, if_pos (List.mem_cons_of_mem _ hbatch)]
        rfl
      · rw [if_neg hbatch, Option.none_or]
        by_cases hkey : k' = k
        · rw [if_pos hkey, if_pos (hkey ▸ List.mem_cons_self)]
        · rw [if_neg hkey, if_neg fun hmem => (List.mem_cons.mp hmem).elim (fun h => hkey h.symm)
            hbatch]

/-- Whenever `down` is said, `up` was said last under its key. -/
def Paired (up down : β) (log : List (κ × β)) : Prop :=
  ∀ before k after, log = before ++ (k, down) :: after → lastSaid before k = some up

variable {up down : β}

theorem paired_nil : Paired (κ := κ) up down [] := by
  rintro before k after h
  exact absurd h.symm (List.append_ne_nil_of_right_ne_nil before (List.cons_ne_nil _ after))

theorem Paired.concat {log : List (κ × β)} (h : Paired up down log) {k : κ} {v : β}
    (hlast : v = down → lastSaid log k = some up) : Paired up down (log ++ [(k, v)]) := by
  rintro before k' after hsplit
  rcases List.eq_nil_or_concat after with rfl | ⟨after, entry, rfl⟩
  · obtain ⟨rfl, hentry⟩ := List.append_inj' hsplit rfl
    cases hentry
    exact hlast rfl
  · rw [List.concat_eq_append, ← List.cons_append, ← List.append_assoc] at hsplit
    exact h before k' after (List.append_inj' hsplit rfl).1

/-- A batch that says `down` nowhere. -/
theorem Paired.append {log batch : List (κ × β)} (h : Paired up down log)
    (hbatch : ∀ entry ∈ batch, entry.2 ≠ down) : Paired up down (log ++ batch) := by
  induction batch generalizing log with
  | nil => rwa [List.append_nil]
  | cons entry batch ih =>
      rw [← List.singleton_append, ← List.append_assoc]
      refine ih (h.concat fun hdown => absurd hdown (hbatch entry List.mem_cons_self)) ?_
      exact fun entry' hentry' => hbatch entry' (List.mem_cons_of_mem _ hentry')

/-- A batch over different keys, each of which was last said to be `up`. -/
theorem Paired.append_nodup {log batch : List (κ × β)} (h : Paired up down log)
    (hnodup : (batch.map Prod.fst).Nodup)
    (hlast : ∀ entry ∈ batch, lastSaid log entry.1 = some up) : Paired up down (log ++ batch) := by
  induction batch generalizing log with
  | nil => rwa [List.append_nil]
  | cons entry batch ih =>
      obtain ⟨k, v⟩ := entry
      obtain ⟨hnew, hrest⟩ := List.nodup_cons.mp hnodup
      rw [← List.singleton_append, ← List.append_assoc]
      refine ih (h.concat fun _ => hlast _ List.mem_cons_self) hrest fun entry' hentry' => ?_
      have hmem : entry'.1 ∈ batch.map Prod.fst := List.mem_map_of_mem hentry'
      have hne : k ≠ entry'.1 := fun heq => hnew (heq ▸ hmem)
      rw [lastSaid_concat, if_neg hne]
      exact hlast entry' (List.mem_cons_of_mem _ hentry')

end AioMoqt.Lib
