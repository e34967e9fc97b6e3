import AioMoqt.Lib.Incremental
import Mathlib.Data.List.Infix

/-!
# Delimited byte streams

A stream cut into sections by a delimiter word: the search for the word, what a stream's
sections are, and the splitter that finds them as the bytes come in.
-/

namespace AioMoqt.Lib.Delimited

open AioMoqt.Lib.BigEndian AioMoqt.Lib.Incremental

/-! ## The first occurrence of a word -/

section

variable {α : Type} [DecidableEq α] {word xs ys : List α} {i k : Nat}

/-- The position of the first occurrence of `word`. -/
def find (word : List α) : List α → Option Nat
  | [] => none
  | a :: rest => if word <+: a :: rest then some 0 else (find word rest).map (· + 1)

/-- A search may start behind positions where the word is not. -/
theorem find_drop (h : ∀ j < k, ¬ word <+: xs.drop j) :
    find word xs = (find word (xs.drop k)).map (· + k) := by
  induction k generalizing xs with
  | zero => simp
  | succ k ih =>
      cases xs with
      | nil => rfl
      | cons a rest =>
          have hhead : ¬ word <+: a :: rest := h 0 (by omega)
          have hrest : ∀ j < k, ¬ word <+: rest.drop j := fun j hj => h (j + 1) (by omega)
          rw [find, if_neg hhead, ih hrest, List.drop_succ_cons, Option.map_map]
          congr 1

theorem find_spec (h : find word xs = some i) :
    word <+: xs.drop i ∧ ∀ j < i, ¬ word <+: xs.drop j := by
  induction xs generalizing i with
  | nil => cases h
  | cons a rest ih =>
      rw [find] at h
      split at h
      next hhead =>
        cases h
        exact ⟨hhead, fun j hj => absurd hj (Nat.not_lt_zero j)⟩
      next hhead =>
        obtain ⟨k, hk, rfl⟩ := Option.map_eq_some_iff.mp h
        have hrest := ih hk
        refine ⟨hrest.1, fun j hj => ?_⟩
        cases j with
        | zero => exact hhead
        | succ j => exact hrest.2 j (by omega)

theorem find_none (hword : word ≠ []) (h : find word xs = none) (j : Nat) :
    ¬ word <+: xs.drop j := by
  induction xs generalizing j with
  | nil =>
      intro hprefix
      rw [List.drop_nil, List.prefix_nil] at hprefix
      exact hword hprefix
  | cons a rest ih =>
      rw [find] at h
      split at h
      next => cases h
      next hhead =>
        cases j with
        | zero => exact hhead
        | succ j => exact ih (Option.map_eq_none_iff.mp h) j

theorem find_eq_some (h : word <+: xs.drop i) (hfirst : ∀ j < i, ¬ word <+: xs.drop j)
    (hword : word ≠ []) : find word xs = some i := by
  rw [find_drop hfirst]
  cases hdrop : xs.drop i with
  | nil =>
      rw [hdrop, List.prefix_nil] at h
      exact absurd h hword
  | cons a rest =>
      rw [find, if_pos (hdrop ▸ h), Option.map_some, Nat.zero_add]

/-- An occurrence lies inside. -/
theorem find_le (hword : word ≠ []) (h : find word xs = some i) : i + word.length ≤ xs.length := by
  have hlen := (find_spec h).1.length_le
  have hpos := List.length_pos_iff.mpr hword
  rw [List.length_drop] at hlen
  omega

/-- A word found is found there whatever follows. -/
theorem find_append (hword : word ≠ []) (h : find word xs = some i) (ys : List α) :
    find word (xs ++ ys) = some i := by
  have hle := find_le hword h
  have hspec := find_spec h
  refine find_eq_some ?_ (fun j hj hprefix => hspec.2 j hj ?_) hword
  · rw [List.drop_append_of_le_length (by omega)]
    exact hspec.1.trans (List.prefix_append _ _)
  · rw [List.drop_append_of_le_length (by omega)] at hprefix
    exact List.prefix_of_prefix_length_le hprefix (List.prefix_append _ _)
      (by rw [List.length_drop]; omega)

/-- What is too short to hold the word is all that a later search needs. -/
theorem find_keep (hword : word ≠ []) (h : find word xs = none)
    (hk : k ≤ xs.length + 1 - word.length) (ys : List α) :
    find word (xs ++ ys) = (find word (xs.drop k ++ ys)).map (· + k) := by
  have hpos := List.length_pos_iff.mpr hword
  have hk' : k ≤ xs.length := by omega
  rw [← List.drop_append_of_le_length hk']
  refine find_drop fun j hj hprefix => ?_
  rw [List.drop_append_of_le_length (by omega)] at hprefix
  exact find_none hword h j (List.prefix_of_prefix_length_le hprefix (List.prefix_append _ _)
    (by rw [List.length_drop]; omega))

theorem not_infix_of_find_none (hword : word ≠ []) (h : find word xs = none) :
    ¬ word <:+: xs := by
  rintro ⟨front, back, rfl⟩
  refine find_none hword h front.length ?_
  rw [List.append_assoc, List.drop_left]
  exact List.prefix_append _ _

/-- In front of the first occurrence there is none. -/
theorem not_infix_take (hword : word ≠ []) (h : find word xs = some i) :
    ¬ word <:+: xs.take i := by
  rintro ⟨front, back, hsplit⟩
  have hlen := congrArg List.length hsplit
  rw [List.length_append, List.length_append, List.length_take] at hlen
  have hpos := List.length_pos_iff.mpr hword
  refine (find_spec h).2 front.length (by omega) ?_
  have hxs : xs = front ++ (word ++ (back ++ xs.drop i)) := by
    calc xs = xs.take i ++ xs.drop i := (List.take_append_drop i xs).symm
      _ = (front ++ word ++ back) ++ xs.drop i := by rw [hsplit]
      _ = front ++ (word ++ (back ++ xs.drop i)) := by simp only [List.append_assoc]
  rw [hxs, List.drop_left]
  exact List.prefix_append _ _

theorem split_at_find (h : find word xs = some i) :
    xs = xs.take i ++ (word ++ xs.drop (i + word.length)) := by
  obtain ⟨rest, hrest⟩ := (find_spec h).1
  have hdrop : xs.drop (i + word.length) = rest := by
    rw [← List.drop_drop, ← hrest, List.drop_left]
  rw [hdrop, hrest, List.take_append_drop]

end

/-! ## Sections -/

variable {word b : Bytes}

/-- `b` is `head` and then `parts`, each behind the delimiter, and holds it nowhere else. -/
structure Sections (word b head : Bytes) (parts : List Bytes) : Prop where
  join : b = head ++ (parts.map (word ++ ·)).flatten
  head : ¬ word <:+: head
  part : ∀ p ∈ parts, ¬ word <:+: p

/-- The splitter: nothing before the first delimiter, then the sections that have ended. -/
def next (word : Bytes) (s : Option (List Bytes)) (buf : Bytes) :
    Next (Option (List Bytes)) Empty :=
  match find word buf with
  | none => .wait
  | some i => .take (i + word.length) (some (match s with
      | none => []
      | some parts => parts ++ [buf.take i]))

theorem next_stable (hword : word ≠ []) : Stable (next word) where
  nil _ := rfl
  take := by
    intro s buf n s' h
    have hpos := List.length_pos_iff.mpr hword
    unfold next at h
    cases hfind : find word buf with
    | none => simp [hfind] at h
    | some i =>
        have hle := find_le hword hfind
        simp only [hfind, Next.take.injEq] at h
        omega
  append := by
    intro s buf more h
    unfold next at h ⊢
    cases hfind : find word buf with
    | none => simp [hfind] at h
    | some i =>
        have hle := find_le hword hfind
        have htake : (buf ++ more).take i = buf.take i :=
          List.take_append_of_le_length (by omega)
        simp only [find_append hword hfind, htake]

/-- What was read: `b` is a head without the delimiter, the sections that have ended, and the
bytes behind the last delimiter. -/
def Reads (word b : Bytes) (s : Option (List Bytes)) (rest : Bytes) : Prop :=
  match s with
  | none => b = rest
  | some parts => ∃ head, ¬ word <:+: head ∧ (∀ p ∈ parts, ¬ word <:+: p) ∧
      b = head ++ (parts.map (word ++ ·)).flatten ++ (word ++ rest)

theorem Reads.take {s s' : Option (List Bytes)} {rest : Bytes} {n : Nat} (hword : word ≠ [])
    (h : Reads word b s rest) (hnext : next word s rest = .take n s') :
    Reads word b s' (rest.drop n) := by
  unfold next at hnext
  cases hfind : find word rest with
  | none => simp [hfind] at hnext
  | some i =>
      simp only [hfind, Next.take.injEq] at hnext
      obtain ⟨rfl, rfl⟩ := hnext
      have hsplit := split_at_find hfind
      have hfree := not_infix_take hword hfind
      cases s with
      | none =>
          refine ⟨rest.take i, hfree, by simp, ?_⟩
          rw [h]
          simpa using hsplit
      | some parts =>
          obtain ⟨head, hhead, hparts, hb⟩ := h
          refine ⟨head, hhead, ?_, ?_⟩
          · intro p hp
            rcases List.mem_append.mp hp with hp | hp
            · exact hparts p hp
            · rw [List.mem_singleton.mp hp]
              exact hfree
          · rw [hb]
            conv_lhs => rw [hsplit]
            simp only [List.map_append, List.map_cons, List.map_nil, List.flatten_append,
              List.flatten_cons, List.flatten_nil, List.append_assoc, List.append_nil]

/-- **The splitter reads what is there**, and stops where no delimiter is left. -/
theorem Reads.run {s : Option (List Bytes)} {rest : Bytes} {fuel : Nat} (hword : word ≠ [])
    (hfuel : rest.length ≤ fuel) (h : Reads word b s rest) :
    ∃ s' rest', Incremental.run (next word) fuel s rest = .inl (s', rest') ∧
      Reads word b s' rest' ∧ find word rest' = none := by
  induction fuel generalizing s rest with
  | zero =>
      obtain rfl := List.length_eq_zero_iff.mp (Nat.le_zero.mp hfuel)
      exact ⟨s, [], rfl, h, rfl⟩
  | succ fuel ih =>
      cases hfind : find word rest with
      | none => exact ⟨s, rest, by simp [Incremental.run, next, hfind], h, hfind⟩
      | some i =>
          have hstable := next_stable hword
          cases hnext : next word s rest with
          | wait => simp [next, hfind] at hnext
          | stop result => exact result.elim
          | take n s' =>
              have htake := hstable.take hnext
              have hdrop : (rest.drop n).length ≤ fuel := by
                rw [List.length_drop]
                omega
              simp only [Incremental.run, hnext]
              exact ih hdrop (h.take hword hnext)

/-- What the splitter makes of a stream that came at once. -/
def split (word b : Bytes) : Option (List Bytes) × Bytes :=
  match Incremental.run (next word) b.length none b with
  | .inl waiting => waiting
  | .inr result => result.elim

theorem run_split (word b : Bytes) :
    Incremental.run (next word) b.length none b = .inl (split word b) := by
  unfold split
  cases Incremental.run (next word) b.length none b with
  | inl waiting => rfl
  | inr result => exact result.elim

/-- More bytes go on where the splitter stands. -/
theorem run_append_split (hword : word ≠ []) (b more : Bytes) :
    Incremental.run (next word) ((split word b).2 ++ more).length (split word b).1
      ((split word b).2 ++ more) = .inl (split word (b ++ more)) := by
  have h := run_append (next_stable hword) (s := none) (le_refl b.length) more
  rw [run_split, run_split] at h
  exact h.symm

theorem split_spec (hword : word ≠ []) (b : Bytes) :
    Reads word b (split word b).1 (split word b).2 ∧ find word (split word b).2 = none := by
  have hstart : Reads word b none b := rfl
  obtain ⟨s', rest', hrun, hreads, hnone⟩ := hstart.run hword (le_refl b.length)
  rw [run_split] at hrun
  obtain ⟨rfl, rfl⟩ := Prod.mk.inj (Sum.inl.inj hrun)
  exact ⟨hreads, hnone⟩

/-- What is behind the last delimiter is the open section. -/
theorem Reads.sections {parts : List Bytes} {rest : Bytes} (hword : word ≠ [])
    (h : Reads word b (some parts) rest) (hrest : find word rest = none) :
    ∃ head, Sections word b head (parts ++ [rest]) := by
  obtain ⟨head, hhead, hparts, hb⟩ := h
  refine ⟨head, ?_, hhead, ?_⟩
  · rw [hb]
    simp only [List.map_append, List.map_cons, List.map_nil, List.flatten_append,
      List.flatten_cons, List.flatten_nil, List.append_assoc, List.append_nil]
  · intro p hp
    rcases List.mem_append.mp hp with hp | hp
    · exact hparts p hp
    · rw [List.mem_singleton.mp hp]
      exact not_infix_of_find_none hword hrest

end AioMoqt.Lib.Delimited
