import Mathlib.Order.Lattice
import Mathlib.Data.List.Basic

/-!
# Replaying a log of updates

An update is a value of its own or changes the value before it.  Those of a log are applied
in order.  A receiver that gets them in another order keeps the place of the last one it
applied and takes only what has a later place: it stands where the log stands at that place,
as long as no change overtakes the update before it.
-/

namespace AioMoqt.Lib

/-- What updates of type `υ` are to values of type `σ`. -/
structure Updates (σ υ : Type) where
  /-- The value of an update that needs none before it. -/
  full : υ → Option σ
  /-- What a change makes of a value, where it applies. -/
  change : σ → υ → Option σ

/-- A value and the place of the update that made it. -/
structure Receiver (L σ : Type) where
  held : Option σ := none
  mark : Option L := none

namespace Updates

variable {L σ υ : Type} (U : Updates σ υ)

/-- The value after an update. -/
def next (s : Option σ) (u : υ) : Option σ := (U.full u).or (s.bind fun v => U.change v u)

/-- The value after updates in order. -/
def replay (s : Option σ) (us : List υ) : Option σ := us.foldl U.next s

theorem replay_append (s : Option σ) (us vs : List υ) :
    U.replay s (us ++ vs) = U.replay (U.replay s us) vs := List.foldl_append

theorem replay_concat (s : Option σ) (us : List υ) (u : υ) :
    U.replay s (us ++ [u]) = U.next (U.replay s us) u := by
  rw [replay_append]
  rfl

theorem next_full {u : υ} {v : σ} (h : U.full u = some v) (s : Option σ) : U.next s u = some v := by
  rw [next, h, Option.some_or]

theorem next_change {u : υ} (h : U.full u = none) (v : σ) :
    U.next (some v) u = U.change v u := by
  rw [next, h, Option.none_or, Option.bind_some]

/-! ## A log -/

section Log

variable (log : List (L × υ))

/-- The value at a place of the log. -/
def valueAt (k : Nat) : Option σ := U.replay none ((log.take (k + 1)).map Prod.snd)

variable {log}

theorem valueAt_succ {k : Nat} {entry : L × υ} (h : log[k + 1]? = some entry) :
    U.valueAt log (k + 1) = U.next (U.valueAt log k) entry.2 := by
  rw [valueAt, List.take_add_one, h, Option.toList_some, List.map_append, List.map_singleton,
    replay_concat]
  rfl

theorem valueAt_full {k : Nat} {entry : L × υ} {v : σ} (h : log[k]? = some entry)
    (hfull : U.full entry.2 = some v) : U.valueAt log k = some v := by
  rw [valueAt, List.take_add_one, h, Option.toList_some, List.map_append, List.map_singleton,
    replay_concat, U.next_full hfull]

/-! ## A receiver -/

variable [LinearOrder L]

/-- What is not after the mark is dropped, and so is a change while no value is held; nothing
is returned when a change does not apply. -/
def take (r : Receiver L σ) (place : L) (u : υ) : Option (Receiver L σ) :=
  if r.mark.any fun mark => place ≤ mark then some r
  else match U.full u, r.held with
    | some v, _ => some ⟨some v, some place⟩
    | none, none => some r
    | none, some v => (U.change v u).map fun v => ⟨some v, some place⟩

variable (log) in
/-- A log with ascending places, every update of which applies where it stands. -/
structure Applies : Prop where
  ascending : log.Pairwise fun a b => a.1 < b.1
  applies : ∀ k < log.length, (U.valueAt log k).isSome

variable (log) in
/-- The receiver stands at a place of the log. -/
def At (r : Receiver L σ) (k : Nat) : Prop :=
  ∃ entry, log[k]? = some entry ∧ r.mark = some entry.1 ∧ r.held = U.valueAt log k

theorem Applies.place_le (h : U.Applies log) {i j : Nat} {a b : L × υ}
    (hi : log[i]? = some a) (hj : log[j]? = some b) : b.1 ≤ a.1 ↔ j ≤ i := by
  obtain ⟨hilt, rfl⟩ := List.getElem?_eq_some_iff.mp hi
  obtain ⟨hjlt, rfl⟩ := List.getElem?_eq_some_iff.mp hj
  have hlt := List.pairwise_iff_getElem.mp h.ascending
  constructor
  · intro hle
    by_contra hji
    have hbefore := hlt i j hilt hjlt (by omega)
    exact absurd hle (not_le.mpr hbefore)
  · intro hji
    obtain heq | hbefore := Nat.eq_or_lt_of_le hji
    · subst heq
      exact le_refl _
    · exact le_of_lt (hlt j i hjlt hilt hbefore)

/-- A receiver at one place goes to a later one by a value of its own or by the next change,
and stays for what is not later. -/
theorem At.take (h : U.Applies log) {r : Receiver L σ} {i j : Nat} {entry : L × υ}
    (hat : U.At log r i) (hj : log[j]? = some entry)
    (hcatch : (U.full entry.2).isSome ∨ j ≤ i + 1) :
    ∃ r', U.take r entry.1 entry.2 = some r' ∧ U.At log r' (max i j) := by
  obtain ⟨last, hi, hmark, hheld⟩ := hat
  rw [Updates.take, hmark]
  simp only [Option.any_some, decide_eq_true_eq, h.place_le U hi hj]
  by_cases hji : j ≤ i
  · rw [if_pos hji, Nat.max_eq_left hji]
    exact ⟨r, rfl, last, hi, hmark, hheld⟩
  · rw [if_neg hji, Nat.max_eq_right (by omega)]
    cases hfull : U.full entry.2 with
    | some v => exact ⟨_, rfl, entry, hj, rfl, (U.valueAt_full hj hfull).symm⟩
    | none =>
        have hnext : j = i + 1 := by
          have hle := hcatch.resolve_left (by simp [hfull])
          omega
        subst hnext
        have hlt := (List.getElem?_eq_some_iff.mp hi).1
        obtain ⟨v, hv⟩ := Option.isSome_iff_exists.mp (h.applies i hlt)
        have hsucc := U.valueAt_succ hj
        have hltj := (List.getElem?_eq_some_iff.mp hj).1
        obtain ⟨w, hw⟩ := Option.isSome_iff_exists.mp (h.applies (i + 1) hltj)
        rw [hv, U.next_change hfull, hw] at hsucc
        rw [hheld, hv]
        simp only [← hsucc, Option.map_some]
        exact ⟨_, rfl, entry, hj, rfl, hw.symm⟩

variable (log) in
/-- Where deliveries lead, given by their positions in the log: to the last of them. -/
def Follows (r : Receiver L σ) (js : List Nat) : Prop :=
  match js with
  | [] => r.held = none ∧ r.mark = none
  | _ :: _ => ∃ k ∈ js, (∀ j ∈ js, j ≤ k) ∧ U.At log r k

/-- A delivery that is a value of its own, or comes after the one before it. -/
theorem Follows.take (h : U.Applies log) {r : Receiver L σ} {js : List Nat} {j : Nat}
    {entry : L × υ} (hfollows : U.Follows log r js) (hj : log[j]? = some entry)
    (hcatch : (U.full entry.2).isSome ∨ ∃ i ∈ js, j ≤ i + 1) :
    ∃ r', U.take r entry.1 entry.2 = some r' ∧ U.Follows log r' (js ++ [j]) := by
  cases js with
  | nil =>
      obtain ⟨v, hv⟩ := Option.isSome_iff_exists.mp (hcatch.resolve_right (by simp))
      refine ⟨⟨some v, some entry.1⟩, ?_, ?_⟩
      · rw [Updates.take, hfollows.2, hv]
        rfl
      · exact ⟨j, by simp, by simp, entry, hj, rfl, (U.valueAt_full hj hv).symm⟩
  | cons first rest =>
      obtain ⟨k, hk, hmax, hat⟩ := hfollows
      have hnear : (U.full entry.2).isSome ∨ j ≤ k + 1 := by
        obtain hfull | ⟨i, hi, hle⟩ := hcatch
        · exact Or.inl hfull
        · have hik := hmax i hi
          exact Or.inr (by omega)
      obtain ⟨r', htake, hat'⟩ := hat.take U h hj hnear
      refine ⟨r', htake, max k j, ?_, ?_, hat'⟩
      · obtain hkj | hjk := Nat.le_total k j
        · rw [Nat.max_eq_right hkj]
          exact List.mem_append_right _ List.mem_cons_self
        · rw [Nat.max_eq_left hjk]
          exact List.mem_append_left _ hk
      · intro i hi
        obtain hold | hnew := List.mem_append.mp hi
        · exact Nat.le_trans (hmax i hold) (Nat.le_max_left k j)
        · rw [List.mem_singleton.mp hnew]
          exact Nat.le_max_right k j

/-- Until the first value of its own, changes are dropped. -/
theorem Follows.take_early {r : Receiver L σ} {entry : L × υ} (hfollows : U.Follows log r [])
    (hchange : U.full entry.2 = none) : U.take r entry.1 entry.2 = some r := by
  rw [Updates.take, hfollows.2, hchange, hfollows.1]
  rfl

omit [LinearOrder L] in
/-- What is held is the value at some place of the log. -/
theorem Follows.held {r : Receiver L σ} {js : List Nat} (hfollows : U.Follows log r js) :
    r.held = none ∨ ∃ k < log.length, r.held = U.valueAt log k := by
  cases js with
  | nil => exact Or.inl hfollows.1
  | cons first rest =>
      obtain ⟨k, -, -, entry, hentry, -, hheld⟩ := hfollows
      exact Or.inr ⟨k, (List.getElem?_eq_some_iff.mp hentry).1, hheld⟩

omit [LinearOrder L] in
/-- With the last update among the deliveries, what is held is the value after all of them. -/
theorem Follows.last {r : Receiver L σ} {js : List Nat} (hfollows : U.Follows log r js)
    (hlast : log.length - 1 ∈ js) : r.held = U.replay none (log.map Prod.snd) := by
  cases js with
  | nil => cases hlast
  | cons first rest =>
      obtain ⟨k, -, hmax, entry, hentry, -, hheld⟩ := hfollows
      have hlt := (List.getElem?_eq_some_iff.mp hentry).1
      have hle := hmax _ hlast
      rw [hheld, valueAt, List.take_of_length_le (by omega)]

end Log

end Updates

end AioMoqt.Lib
