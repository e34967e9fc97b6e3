import Mathlib.Data.Finset.Card
import Mathlib.Order.Interval.Finset.Nat
import AioMoqt.Lib.Dict

/-!
# Bounded records of what is recent

A dictionary that keeps its newest entries only.  Its keys are numbers that are recorded in
almost ascending order: below a key that is recorded, only few are still open.  Then a key that
is dropped is far behind the greatest.
-/

namespace AioMoqt.Lib

namespace Dict

variable {κ α : Type}

/-- The newest entries, at most so many. -/
def keepNewest (cap : Nat) (d : Dict κ α) : Dict κ α :=
  ⟨d.entries.drop (d.size - cap), d.nodup.sublist ((List.drop_sublist _ _).map _)⟩

theorem keys_keepNewest (cap : Nat) (d : Dict κ α) :
    (d.keepNewest cap).keys = d.keys.drop (d.size - cap) := List.map_drop

theorem size_keepNewest (cap : Nat) (d : Dict κ α) : (d.keepNewest cap).size ≤ cap := by
  show (d.entries.drop (d.size - cap)).length ≤ cap
  rw [List.length_drop]
  show d.size - (d.size - cap) ≤ cap
  omega

theorem mem_keys_of_keepNewest {cap : Nat} {d : Dict κ α} {k : κ}
    (h : k ∈ (d.keepNewest cap).keys) : k ∈ d.keys := by
  rw [keys_keepNewest] at h
  exact List.mem_of_mem_drop h

theorem get?_of_keepNewest [DecidableEq κ] {cap : Nat} {d : Dict κ α} {k : κ} {v : α}
    (h : (d.keepNewest cap).get? k = some v) : d.get? k = some v := by
  rw [get?_eq_some] at h ⊢
  exact List.mem_of_mem_drop h

/-- Behind a key that is dropped there are as many as are kept. -/
theorem dropped_keepNewest {cap : Nat} {d : Dict κ α} {k : κ} (hmem : k ∈ d.keys)
    (hgone : k ∉ (d.keepNewest cap).keys) :
    ∃ before after, d.keys = before ++ k :: after ∧ cap ≤ after.length := by
  rw [keys_keepNewest] at hgone
  have hsplit := List.take_append_drop (d.size - cap) d.keys
  have hfirst : k ∈ d.keys.take (d.size - cap) := by
    rw [← hsplit, List.mem_append] at hmem
    exact hmem.resolve_right hgone
  obtain ⟨before, after, htake⟩ := List.append_of_mem hfirst
  refine ⟨before, after ++ d.keys.drop (d.size - cap), ?_, ?_⟩
  · conv_lhs => rw [← hsplit, htake]
    rw [List.append_assoc, List.cons_append]
  · have hsize : d.keys.length = d.size := List.length_map _
    have hlen : (d.keys.take (d.size - cap)).length ≤ d.size - cap := List.length_take_le _ _
    rw [htake, List.length_append, List.length_cons] at hlen
    rw [List.length_append, List.length_drop, hsize]
    omega

end Dict

/-- Of the numbers further below a recorded one than the slack, so few are recorded behind it or
still open. -/
def Bunched (slack : Nat) (opened : Finset Nat) (records : List Nat) : Prop :=
  ∀ before c after, records = before ++ c :: after →
    after.countP (· + slack < c) + (opened.filter (· + slack < c)).card ≤ slack + 1

namespace Bunched

variable {slack : Nat} {opened : Finset Nat} {records : List Nat}

theorem nil : Bunched slack opened [] := by
  intro before c after h
  exact absurd h.symm (List.append_ne_nil_of_right_ne_nil _ (List.cons_ne_nil _ _))

/-- A record behind the others: it is one of them, or the last. -/
theorem split_concat {records : List Nat} {x c : Nat} {before after : List Nat}
    (h : records ++ [x] = before ++ c :: after) :
    (∃ rest, after = rest ++ [x] ∧ records = before ++ c :: rest) ∨
      (after = [] ∧ c = x ∧ records = before) := by
  rcases List.eq_nil_or_concat' after with rfl | ⟨rest, y, rfl⟩
  · right
    obtain ⟨hrecords, hlast⟩ := List.append_inj' h rfl
    obtain rfl := (List.cons.inj hlast).1
    exact ⟨rfl, rfl, hrecords⟩
  · left
    rw [← List.cons_append, ← List.append_assoc] at h
    obtain ⟨hrecords, hlast⟩ := List.append_inj' h rfl
    obtain rfl := (List.cons.inj hlast).1
    exact ⟨rest, rfl, hrecords⟩

/-- A number above the others is recorded. -/
theorem above (h : Bunched slack opened records) {x : Nat} (habove : ∀ c ∈ records, c ≤ x)
    (hfew : (opened.filter (· + slack < x)).card ≤ slack + 1) :
    Bunched slack opened (records ++ [x]) := by
  intro before c after hsplit
  rcases split_concat hsplit with ⟨rest, rfl, hrecords⟩ | ⟨rfl, rfl, -⟩
  · have hle : c ≤ x := habove c (by rw [hrecords]; simp)
    rw [List.countP_append, List.countP_singleton, if_neg (by simp; omega), Nat.add_zero]
    exact h before c rest hrecords
  · rw [List.countP_nil, Nat.zero_add]
    exact hfew

/-- A number that was open is recorded. -/
theorem settle (h : Bunched slack opened records) {x : Nat} (hx : x ∈ opened)
    (hfew : (opened.filter (· + slack < x)).card ≤ slack + 1) :
    Bunched slack (opened.erase x) (records ++ [x]) := by
  intro before c after hsplit
  have herase : (opened.erase x).filter (· + slack < c) =
      (opened.filter (· + slack < c)).erase x := Finset.filter_erase _ _ _
  rcases split_concat hsplit with ⟨rest, rfl, hrecords⟩ | ⟨rfl, rfl, -⟩
  · have hold := h before c rest hrecords
    rw [List.countP_append, List.countP_singleton, herase]
    by_cases hlow : x + slack < c
    · have hmem : x ∈ opened.filter (· + slack < c) := Finset.mem_filter.mpr ⟨hx, hlow⟩
      rw [if_pos (by simpa using hlow), Finset.card_erase_of_mem hmem]
      have hpos : 0 < (opened.filter (· + slack < c)).card := Finset.card_pos.mpr ⟨x, hmem⟩
      omega
    · rw [if_neg (by simpa using hlow)]
      have hle := Finset.card_erase_le (s := opened.filter (· + slack < c)) (a := x)
      omega
  · rw [List.countP_nil, Nat.zero_add, herase]
    exact Finset.card_erase_le.trans hfew

/-- A number that is not far behind any record is opened. -/
theorem insert (h : Bunched slack opened records) {x : Nat} (hnear : ∀ c ∈ records, c ≤ x + slack) :
    Bunched slack (insert x opened) records := by
  intro before c after hsplit
  have hle : c ≤ x + slack := hnear c (by rw [hsplit]; simp)
  rw [Finset.filter_insert, if_neg (by omega)]
  exact h before c after hsplit

theorem drop (h : Bunched slack opened records) (n : Nat) :
    Bunched slack opened (records.drop n) := by
  intro before c after hsplit
  refine h (records.take n ++ before) c after ?_
  rw [List.append_assoc, ← hsplit, List.take_append_drop]

/-- A number with so many records behind it is far behind the greatest. -/
theorem far_behind (h : Bunched slack opened records) (hnodup : records.Nodup) {top : Nat}
    (htop : ∀ c ∈ records, c ≤ top) {before after : List Nat} {c : Nat}
    (hsplit : records = before ++ c :: after) (hmany : 3 * slack + 3 ≤ after.length) :
    c + slack < top := by
  by_contra hnear
  have hlow : after.countP (· + slack < c) ≤ slack + 1 :=
    (Nat.le_add_right _ _).trans (h before c after hsplit)
  have hafter : after.Nodup := by
    rw [hsplit] at hnodup
    exact (List.nodup_cons.mp (List.nodup_append.mp hnodup).2.1).2
  have hrange : (after.filter fun x => !decide (x + slack < c)).toFinset ⊆
      Finset.Icc (c - slack) top := by
    intro x hx
    obtain ⟨hmem, hhigh⟩ := List.mem_filter.mp (List.mem_toFinset.mp hx)
    have hle : x ≤ top := htop x (by rw [hsplit]; simp [hmem])
    rw [Bool.not_eq_true', decide_eq_false_iff_not] at hhigh
    rw [Finset.mem_Icc]
    omega
  have hcard := Finset.card_le_card hrange
  rw [List.toFinset_card_of_nodup (hafter.filter _), ← List.countP_eq_length_filter,
    Nat.card_Icc] at hcard
  have htotal := List.length_eq_countP_add_countP (fun x => decide (x + slack < c)) (l := after)
  have hnot : (after.countP fun x => decide ¬ (decide (x + slack < c)) = true) =
      after.countP fun x => !decide (x + slack < c) := by
    apply List.countP_congr
    intro x _
    simp
  rw [hnot] at htotal
  omega

end Bunched

end AioMoqt.Lib
