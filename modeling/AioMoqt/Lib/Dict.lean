import Mathlib.Data.List.Sort

/-!
# Insertion-ordered dictionaries

Python's `dict`: at most one value a key, iteration in insertion order, an
existing key overwritten in place.
-/

namespace AioMoqt.Lib

/-- Entries in insertion order, each key once. -/
structure Dict (κ α : Type) where
  entries : List (κ × α)
  nodup : (entries.map Prod.fst).Nodup

/-- Sorting by a total preorder puts every earlier element before every later one. -/
theorem pairwise_mergeSort_rel {α : Type} {r : α → α → Prop} [DecidableRel r]
    (htrans : ∀ a b c, r a b → r b c → r a c) (htotal : ∀ a b, r a b ∨ r b a) (xs : List α) :
    (xs.mergeSort fun a b => r a b).Pairwise r := by
  have hsorted := List.pairwise_mergeSort (l := xs)
    (fun a b c (hab : decide (r a b) = true) (hbc : decide (r b c) = true) =>
      decide_eq_true (htrans a b c (of_decide_eq_true hab) (of_decide_eq_true hbc)))
    (fun a b => by simpa using htotal a b)
  exact hsorted.imp of_decide_eq_true

namespace Dict

variable {κ α : Type}

def empty : Dict κ α := ⟨[], List.nodup_nil⟩

instance : Inhabited (Dict κ α) := ⟨empty⟩

def keys (d : Dict κ α) : List κ := d.entries.map Prod.fst

def size (d : Dict κ α) : Nat := d.entries.length

variable [DecidableEq κ]

def get? (d : Dict κ α) (k : κ) : Option α := (d.entries.find? fun e => e.1 = k).map Prod.snd

theorem get?_eq_some {d : Dict κ α} {k : κ} {v : α} :
    d.get? k = some v ↔ (k, v) ∈ d.entries := by
  obtain ⟨entries, nodup⟩ := d
  simp only [get?, Option.map_eq_some_iff]
  constructor
  · rintro ⟨⟨k', v'⟩, hfind, rfl⟩
    have hkey := List.find?_some hfind
    simp only [decide_eq_true_eq] at hkey
    subst hkey
    exact List.mem_of_find?_eq_some hfind
  · intro hmem
    induction entries with
    | nil => simp at hmem
    | cons e entries ih =>
        simp only [List.map_cons, List.nodup_cons] at nodup
        by_cases he : e.1 = k
        · refine ⟨e, by simp [he], ?_⟩
          rcases List.mem_cons.mp hmem with rfl | hmem
          · rfl
          · exact absurd (List.mem_map_of_mem (f := Prod.fst) hmem) (he ▸ nodup.1)
        · rcases List.mem_cons.mp hmem with rfl | hmem
          · exact absurd rfl he
          · obtain ⟨e', hfind, hv⟩ := ih nodup.2 hmem
            exact ⟨e', by simp [he, hfind], hv⟩

/-- Two dictionaries are equal as mappings. -/
def Same (d e : Dict κ α) : Prop := ∀ k, d.get? k = e.get? k

theorem same_of_perm {d e : Dict κ α} (h : d.entries.Perm e.entries) : d.Same e := by
  intro k
  refine Option.ext fun v => ?_
  rw [get?_eq_some, get?_eq_some, h.mem_iff]

/-- `d[k] = v`. -/
def insert (d : Dict κ α) (k : κ) (v : α) : Dict κ α :=
  if h : k ∈ d.keys then
    ⟨d.entries.map fun e => if e.1 = k then (k, v) else e, by
      have hkeys : (d.entries.map fun e => if e.1 = k then (k, v) else e).map Prod.fst =
          d.entries.map Prod.fst := by
        rw [List.map_map]
        refine List.map_congr_left fun e _ => ?_
        simp only [Function.comp_apply]
        split_ifs with he
        · exact he.symm
        · rfl
      rw [hkeys]
      exact d.nodup⟩
  else ⟨d.entries ++ [(k, v)], by
    rw [List.map_append, List.nodup_append]
    refine ⟨d.nodup, by simp, ?_⟩
    rintro a ha b hb rfl
    simp only [List.map_cons, List.map_nil, List.mem_singleton] at hb
    exact h (hb ▸ ha)⟩

/-- `d.pop(k, None)`: the dictionary without `k`. -/
def erase (d : Dict κ α) (k : κ) : Dict κ α :=
  ⟨d.entries.filter fun e => e.1 ≠ k, d.nodup.sublist (List.filter_sublist.map _)⟩

theorem mem_entries_insert {d : Dict κ α} {k k' : κ} {v v' : α} :
    (k', v') ∈ (d.insert k v).entries ↔ k' = k ∧ v' = v ∨ k' ≠ k ∧ (k', v') ∈ d.entries := by
  by_cases h : k ∈ d.keys
  · obtain ⟨⟨k₀, v₀⟩, hmem, rfl⟩ := List.mem_map.mp h
    simp only [insert, dif_pos h, List.mem_map]
    constructor
    · rintro ⟨e, he, heq⟩
      split_ifs at heq with hk
      · simp only [Prod.mk.injEq] at heq
        exact .inl ⟨heq.1.symm, heq.2.symm⟩
      · subst heq
        exact .inr ⟨hk, he⟩
    · rintro (⟨rfl, rfl⟩ | ⟨hne, hold⟩)
      · exact ⟨(k', v₀), hmem, by simp⟩
      · exact ⟨(k', v'), hold, by simp [hne]⟩
  · simp only [insert, dif_neg h, List.mem_append, List.mem_singleton, Prod.mk.injEq]
    constructor
    · rintro (hold | ⟨rfl, rfl⟩)
      · by_cases hk : k' = k
        · exact absurd (List.mem_map_of_mem (f := Prod.fst) hold) (hk ▸ h)
        · exact .inr ⟨hk, hold⟩
      · exact .inl ⟨rfl, rfl⟩
    · rintro (⟨rfl, rfl⟩ | ⟨-, hold⟩)
      · exact .inr ⟨rfl, rfl⟩
      · exact .inl hold

theorem get?_insert (d : Dict κ α) (k : κ) (v : α) (k' : κ) :
    (d.insert k v).get? k' = if k' = k then some v else d.get? k' := by
  refine Option.ext fun w => ?_
  rw [get?_eq_some, mem_entries_insert]
  split_ifs with h
  · simp [h, eq_comm]
  · simp [h, get?_eq_some]

theorem get?_erase (d : Dict κ α) (k k' : κ) :
    (d.erase k).get? k' = if k' = k then none else d.get? k' := by
  refine Option.ext fun w => ?_
  rw [get?_eq_some]
  simp only [erase, List.mem_filter, decide_eq_true_eq]
  split_ifs with h
  · simp [h]
  · simp [h, get?_eq_some]

@[simp] theorem get?_empty (k : κ) : (empty : Dict κ α).get? k = none := rfl

/-- A new value leaves the keys in place. -/
theorem keys_insert (d : Dict κ α) (k : κ) (v : α) :
    (d.insert k v).keys = if k ∈ d.keys then d.keys else d.keys ++ [k] := by
  unfold insert
  split
  next h =>
      rw [keys, keys, List.map_map]
      apply List.map_congr_left
      intro e _
      simp only [Function.comp]
      split
      next he => exact he.symm
      · rfl
  next h => rw [keys, keys, List.map_append, List.map_singleton]

theorem get?_eq_none {d : Dict κ α} {k : κ} (h : k ∉ d.keys) : d.get? k = none := by
  by_contra hsome
  obtain ⟨v, hv⟩ := Option.ne_none_iff_exists'.mp hsome
  exact h (List.mem_map_of_mem (get?_eq_some.mp hv))

theorem mem_keys {d : Dict κ α} {k : κ} : k ∈ d.keys ↔ d.get? k ≠ none := by
  constructor
  · intro hk
    obtain ⟨⟨k', v⟩, hmem, rfl⟩ := List.mem_map.mp hk
    rw [get?_eq_some.mpr hmem]
    simp
  · intro hget
    by_contra hk
    exact hget (get?_eq_none hk)

theorem insert_new {d : Dict κ α} {k : κ} (v : α) (h : k ∉ d.keys) :
    (d.insert k v).entries = d.entries ++ [(k, v)] := by
  simp [insert, h]

theorem insert_old {d : Dict κ α} {k : κ} (v : α) (h : k ∈ d.keys) :
    (d.insert k v).entries = d.entries.map fun e => if e.1 = k then (k, v) else e := by
  simp [insert, h]

theorem size_insert_old {d : Dict κ α} {k : κ} (h : k ∈ d.keys) (v : α) :
    (d.insert k v).size = d.size := by
  show (d.insert k v).entries.length = d.entries.length
  rw [insert_old v h, List.length_map]

theorem mem_keys_insert {d : Dict κ α} {k k' : κ} {v : α} :
    k' ∈ (d.insert k v).keys ↔ k' = k ∨ k' ∈ d.keys := by
  rw [mem_keys, get?_insert]
  by_cases hk : k' = k
  · simp [hk]
  · rw [if_neg hk, mem_keys, or_iff_right hk]

theorem mem_keys_erase {d : Dict κ α} {k k' : κ} :
    k' ∈ (d.erase k).keys ↔ k' ≠ k ∧ k' ∈ d.keys := by
  rw [mem_keys, get?_erase]
  by_cases hk : k' = k
  · simp [hk]
  · rw [if_neg hk, mem_keys, and_iff_right hk]

omit [DecidableEq κ] in
theorem length_keys (d : Dict κ α) : d.keys.length = d.size := List.length_map _

omit [DecidableEq κ] in
theorem first_notMem {d : Dict κ α} {first : κ × α} {rest : List (κ × α)}
    (h : d.entries = first :: rest) {e : κ × α} (he : e ∈ rest) : e.1 ≠ first.1 := by
  have hnodup := d.nodup
  rw [h, List.map_cons, List.nodup_cons] at hnodup
  intro heq
  exact hnodup.1 (heq ▸ List.mem_map_of_mem he)

/-- The first key stays first; behind it a value is new or as before. -/
theorem insert_cons {d : Dict κ α} {first : κ × α} {rest : List (κ × α)}
    (h : d.entries = first :: rest) (k : κ) (v : α) :
    ∃ rest', (d.insert k v).entries = (if first.1 = k then (k, v) else first) :: rest' ∧
      ∀ e ∈ rest', e ∈ rest ∨ e = (k, v) ∧ first.1 ≠ k := by
  by_cases hin : k ∈ d.keys
  · refine ⟨rest.map fun e => if e.1 = k then (k, v) else e, by simp [insert, hin, h], ?_⟩
    intro e he
    obtain ⟨old, hold, heq⟩ := List.mem_map.mp he
    have hne := first_notMem h hold
    by_cases hk : old.1 = k
    · rw [if_pos hk] at heq
      exact Or.inr ⟨heq.symm, fun hfirst => hne (hk.trans hfirst.symm)⟩
    · rw [if_neg hk] at heq
      exact Or.inl (heq ▸ hold)
  · have hfirst : first.1 ≠ k := by
      intro heq
      exact hin (by simp [keys, h, heq])
    refine ⟨rest ++ [(k, v)], by rw [insert_new v hin, h, if_neg hfirst, List.cons_append], ?_⟩
    intro e he
    obtain hold | hnew := List.mem_append.mp he
    · exact Or.inl hold
    · exact Or.inr ⟨List.mem_singleton.mp hnew, hfirst⟩

/-- A new value of the first key leaves the rest. -/
theorem insert_first {d : Dict κ α} {first : κ × α} {rest : List (κ × α)}
    (h : d.entries = first :: rest) (v : α) :
    (d.insert first.1 v).entries = (first.1, v) :: rest := by
  have hin : first.1 ∈ d.keys := by simp [keys, h]
  have hrest : (rest.map fun e => if e.1 = first.1 then (first.1, v) else e) = rest := by
    calc (rest.map fun e => if e.1 = first.1 then (first.1, v) else e)
      _ = rest.map id := List.map_congr_left fun e he => if_neg (first_notMem h he)
      _ = rest := List.map_id rest
  simp only [insert, dif_pos hin, h, List.map_cons, if_true, hrest]

theorem erase_first {d : Dict κ α} {first : κ × α} {rest : List (κ × α)}
    (h : d.entries = first :: rest) : (d.erase first.1).entries = rest := by
  show d.entries.filter (fun e => e.1 ≠ first.1) = rest
  rw [h, List.filter_cons_of_neg (by simp)]
  apply List.filter_eq_self.mpr
  intro e he
  simpa using first_notMem h he

/-- A search that only one key can answer. -/
theorem findSome?_key {β : Type} (d : Dict κ α) (key : κ) (f : κ × α → Option β)
    (hf : ∀ entry ∈ d.entries, entry.1 ≠ key → f entry = none) :
    d.entries.findSome? f = (d.get? key).bind fun value => f (key, value) := by
  cases hget : d.get? key with
  | none =>
      rw [Option.bind_none, List.findSome?_eq_none_iff]
      intro entry hentry
      apply hf entry hentry
      rintro rfl
      rw [get?_eq_some.mpr hentry] at hget
      cases hget
  | some value =>
      have hmem := get?_eq_some.mp hget
      rw [Option.bind_some]
      cases hvalue : f (key, value) with
      | none =>
          rw [List.findSome?_eq_none_iff]
          intro entry hentry
          by_cases hkey : entry.1 = key
          · have hsame : entry.2 = value := by
              have hentry : (key, entry.2) ∈ d.entries := hkey ▸ hentry
              rw [← get?_eq_some, hget] at hentry
              exact (Option.some.inj hentry).symm
            rw [← hvalue, ← hkey, ← hsame]
          · exact hf entry hentry hkey
      | some result =>
          obtain ⟨before, after, hsplit⟩ := List.append_of_mem hmem
          rw [List.findSome?_eq_some_iff]
          refine ⟨before, (key, value), after, hsplit, hvalue, ?_⟩
          intro entry hentry
          apply hf entry (hsplit ▸ List.mem_append_left _ hentry)
          intro hkey
          have hnodup := d.nodup
          rw [hsplit, List.map_append, List.map_cons] at hnodup
          have hdisjoint := List.disjoint_of_nodup_append hnodup
          exact hdisjoint (List.mem_map_of_mem hentry) (hkey ▸ List.mem_cons_self)

/-! ## Whole dictionaries -/

omit [DecidableEq κ] in
@[ext] theorem ext {d e : Dict κ α} (h : d.entries = e.entries) : d = e := by
  cases d
  cases e
  cases h
  rfl

/-- A second assignment to a key overwrites the first. -/
theorem insert_insert (d : Dict κ α) (k : κ) (v w : α) :
    (d.insert k v).insert k w = d.insert k w := by
  have hk : k ∈ (d.insert k v).keys := by
    rw [keys_insert]
    split_ifs with h
    · exact h
    · simp
  apply ext
  rw [insert_old w hk]
  by_cases h : k ∈ d.keys
  · rw [insert_old v h, insert_old w h, List.map_map]
    apply List.map_congr_left
    intro e _
    by_cases he : e.1 = k <;> simp [he]
  · rw [insert_new v h, insert_new w h, List.map_append, List.map_singleton, if_pos rfl]
    congr 1
    rw [List.map_congr_left, List.map_id]
    intro e he
    have hne : e.1 ≠ k := fun heq => h (heq ▸ List.mem_map_of_mem he)
    rw [if_neg hne, id]

/-- Entries put in one after the other. -/
def insertAll (d : Dict κ α) (entries : List (κ × α)) : Dict κ α :=
  entries.foldl (fun d entry => d.insert entry.1 entry.2) d

/-- `dict(entries)`. -/
def ofEntries (entries : List (κ × α)) : Dict κ α := empty.insertAll entries

/-- `d.update(e)`. -/
def update (d e : Dict κ α) : Dict κ α := d.insertAll e.entries

/-- `{k: v for k, v in d.items() if p(k)}`. -/
def filterKeys (p : κ → Bool) (d : Dict κ α) : Dict κ α :=
  ⟨d.entries.filter fun entry => p entry.1, d.nodup.sublist (List.filter_sublist.map _)⟩

/-- `{k: v for k, v in d.items() if p(k, v)}`. -/
def filter (p : κ → α → Bool) (d : Dict κ α) : Dict κ α :=
  ⟨d.entries.filter fun entry => p entry.1 entry.2, d.nodup.sublist (List.filter_sublist.map _)⟩

@[simp] theorem insertAll_nil (d : Dict κ α) : d.insertAll [] = d := rfl

@[simp] theorem insertAll_cons (d : Dict κ α) (entry : κ × α) (entries : List (κ × α)) :
    d.insertAll (entry :: entries) = (d.insert entry.1 entry.2).insertAll entries := rfl

theorem get?_insertAll_of_notMem {d : Dict κ α} {entries : List (κ × α)} {k : κ}
    (h : k ∉ entries.map Prod.fst) : (d.insertAll entries).get? k = d.get? k := by
  induction entries generalizing d with
  | nil => rfl
  | cons entry entries ih =>
      rw [List.map_cons, List.mem_cons, not_or] at h
      rw [insertAll_cons, ih h.2, get?_insert, if_neg h.1]

/-- The second dictionary's values come before the first's. -/
theorem get?_update (d e : Dict κ α) (k : κ) :
    (d.update e).get? k = (e.get? k).or (d.get? k) := by
  obtain ⟨entries, nodup⟩ := e
  rw [update]
  induction entries generalizing d with
  | nil => rfl
  | cons entry entries ih =>
      rw [List.map_cons, List.nodup_cons] at nodup
      rw [insertAll_cons]
      by_cases hk : k = entry.1
      · have hfirst : (⟨entry :: entries, by simpa using nodup⟩ : Dict κ α).get? k =
            some entry.2 := by
          rw [get?_eq_some, hk]
          exact List.mem_cons_self
        rw [hfirst, Option.some_or, get?_insertAll_of_notMem (hk ▸ nodup.1), get?_insert, if_pos hk]
      · have hrest : (⟨entry :: entries, by simpa using nodup⟩ : Dict κ α).get? k =
            (⟨entries, nodup.2⟩ : Dict κ α).get? k := by
          have hne : ¬ entry.1 = k := fun heq => hk heq.symm
          simp only [get?, List.find?_cons, decide_eq_false hne]
        have hih := ih (d.insert entry.1 entry.2) nodup.2
        rw [hrest, hih, get?_insert, if_neg hk]

theorem insertAll_new {d : Dict κ α} {entries : List (κ × α)}
    (hnodup : (entries.map Prod.fst).Nodup) (hnew : ∀ entry ∈ entries, entry.1 ∉ d.keys) :
    (d.insertAll entries).entries = d.entries ++ entries := by
  induction entries generalizing d with
  | nil => rw [insertAll_nil, List.append_nil]
  | cons entry entries ih =>
      have hfirst := insert_new entry.2 (hnew entry List.mem_cons_self)
      rw [List.map_cons, List.nodup_cons] at hnodup
      rw [insertAll_cons, ih hnodup.2 ?_, hfirst, List.append_assoc, List.singleton_append]
      intro later hlater
      rw [keys, hfirst, List.map_append, List.mem_append, not_or]
      refine ⟨hnew later (List.mem_cons_of_mem _ hlater), ?_⟩
      rw [List.map_singleton, List.mem_singleton]
      intro heq
      exact hnodup.1 (heq ▸ List.mem_map_of_mem hlater)

theorem entries_ofEntries {entries : List (κ × α)} (h : (entries.map Prod.fst).Nodup) :
    (ofEntries entries).entries = entries := by
  rw [ofEntries, insertAll_new h (by simp [empty, keys])]
  rfl

@[simp] theorem ofEntries_entries (d : Dict κ α) : ofEntries d.entries = d := by
  apply ext
  exact entries_ofEntries d.nodup

@[simp] theorem empty_update (d : Dict κ α) : empty.update d = d := ofEntries_entries d

theorem get?_filterKeys (p : κ → Bool) (d : Dict κ α) (k : κ) :
    (d.filterKeys p).get? k = if p k then d.get? k else none := by
  apply Option.ext
  intro v
  rw [get?_eq_some, filterKeys, List.mem_filter]
  by_cases hp : p k <;> simp [hp, get?_eq_some]

theorem mem_keys_filterKeys {p : κ → Bool} {d : Dict κ α} {k : κ} :
    k ∈ (d.filterKeys p).keys ↔ p k = true ∧ k ∈ d.keys := by
  rw [mem_keys, get?_filterKeys]
  by_cases hp : p k = true
  · rw [if_pos hp, mem_keys, and_iff_right hp]
  · simp [hp]

theorem get?_filter_eq_some {p : κ → α → Bool} {d : Dict κ α} {k : κ} {v : α} :
    (d.filter p).get? k = some v ↔ d.get? k = some v ∧ p k v = true := by
  rw [get?_eq_some, get?_eq_some]
  exact List.mem_filter

theorem filterKeys_insert (p : κ → Bool) (d : Dict κ α) (k : κ) (v : α) :
    (d.insert k v).filterKeys p = if p k then (d.filterKeys p).insert k v else d.filterKeys p := by
  have hkeys : k ∈ (d.filterKeys p).keys ↔ k ∈ d.keys ∧ p k := by
    simp [keys, filterKeys]
  apply ext
  by_cases hp : p k
  · rw [if_pos hp]
    by_cases hk : k ∈ d.keys
    · rw [insert_old v (hkeys.mpr ⟨hk, hp⟩)]
      simp only [filterKeys, insert_old v hk, List.filter_map]
      congr 1
      apply List.filter_congr
      intro entry _
      by_cases he : entry.1 = k <;> simp [he, hp]
    · rw [insert_new v fun h => hk (hkeys.mp h).1]
      simp [filterKeys, insert_new v hk, hp]
  · rw [if_neg hp]
    by_cases hk : k ∈ d.keys
    · simp only [filterKeys, insert_old v hk, List.filter_map]
      calc (d.entries.filter ((fun entry => p entry.1) ∘ fun e => if e.1 = k then (k, v) else e)).map
              (fun e => if e.1 = k then (k, v) else e)
        _ = (d.entries.filter fun entry => p entry.1).map
              (fun e => if e.1 = k then (k, v) else e) := by
            congr 1
            apply List.filter_congr
            intro entry _
            by_cases he : entry.1 = k <;> simp [he]
        _ = (d.entries.filter fun entry => p entry.1).map id := by
            apply List.map_congr_left
            intro entry hentry
            have hpass := (List.mem_filter.mp hentry).2
            apply if_neg
            intro he
            exact hp (he ▸ hpass)
        _ = d.entries.filter fun entry => p entry.1 := List.map_id _
    · simp [filterKeys, insert_new v hk, hp]

theorem filterKeys_insertAll (p : κ → Bool) (d : Dict κ α) (entries : List (κ × α)) :
    (d.insertAll entries).filterKeys p =
      (d.filterKeys p).insertAll (entries.filter fun entry => p entry.1) := by
  induction entries generalizing d with
  | nil => rfl
  | cons entry entries ih =>
      rw [insertAll_cons, ih, filterKeys_insert]
      by_cases hp : p entry.1
      · simp [hp]
      · simp [hp]

/-- What is kept of an update none of whose keys is left out. -/
theorem filterKeys_update {p : κ → Bool} {d e : Dict κ α} (h : ∀ k ∈ e.keys, p k) :
    (d.update e).filterKeys p = (d.filterKeys p).update e := by
  rw [update, filterKeys_insertAll, update]
  congr 1
  apply List.filter_eq_self.mpr
  intro entry hentry
  exact h entry.1 (List.mem_map_of_mem hentry)

end Dict

/-! ## Ascending keys -/

namespace Dict

section Map

variable {κ α β : Type}

/-- The dictionary with its values exchanged. -/
def map (f : α → β) (d : Dict κ α) : Dict κ β :=
  ⟨d.entries.map fun e => (e.1, f e.2), by
    rw [List.map_map]
    exact d.nodup⟩

@[simp] theorem entries_map (f : α → β) (d : Dict κ α) :
    (d.map f).entries = d.entries.map fun e => (e.1, f e.2) := rfl

@[simp] theorem keys_map (f : α → β) (d : Dict κ α) : (d.map f).keys = d.keys := by
  rw [keys, entries_map, List.map_map]
  rfl

theorem map_congr {f g : α → β} {d : Dict κ α} (h : ∀ e ∈ d.entries, f e.2 = g e.2) :
    d.map f = d.map g := by
  apply ext
  apply List.map_congr_left
  intro e he
  rw [h e he]

variable [DecidableEq κ]

theorem get?_map (f : α → β) (d : Dict κ α) (k : κ) : (d.map f).get? k = (d.get? k).map f := by
  unfold get?
  rw [entries_map, List.find?_map, Option.map_map, Option.map_map]
  rfl

/-- `{k: f(k, v) for k, v in d.items()}`. -/
def mapWithKey (f : κ → α → β) (d : Dict κ α) : Dict κ β :=
  ⟨d.entries.map fun e => (e.1, f e.1 e.2), by
    rw [List.map_map]
    exact d.nodup⟩

theorem get?_mapWithKey (f : κ → α → β) (d : Dict κ α) (k : κ) :
    (d.mapWithKey f).get? k = (d.get? k).map (f k) := by
  rw [get?, get?, mapWithKey, List.find?_map, Option.map_map, Option.map_map]
  cases h : List.find? ((fun e => decide (e.1 = k)) ∘ fun e => (e.1, f e.1 e.2)) d.entries with
  | none =>
      have hsame : List.find? (fun e => decide (e.1 = k)) d.entries = none := h
      rw [hsame]
      rfl
  | some e =>
      have hsame : List.find? (fun e => decide (e.1 = k)) d.entries = some e := h
      have hkey : e.1 = k := by simpa using List.find?_some hsame
      rw [hsame]
      simp [hkey]

theorem map_erase (f : α → β) (d : Dict κ α) (k : κ) : (d.erase k).map f = (d.map f).erase k := by
  apply ext
  show (d.entries.filter fun e => e.1 ≠ k).map (fun e => (e.1, f e.2)) =
    (d.entries.map fun e => (e.1, f e.2)).filter fun e => e.1 ≠ k
  rw [List.filter_map]
  rfl

theorem map_insert (f : α → β) (d : Dict κ α) (k : κ) (v : α) :
    (d.insert k v).map f = (d.map f).insert k (f v) := by
  apply ext
  by_cases hk : k ∈ d.keys
  · have hk' : k ∈ (d.map f).keys := by rwa [keys_map]
    rw [entries_map, insert_old v hk, insert_old (f v) hk', entries_map, List.map_map, List.map_map]
    apply List.map_congr_left
    intro e _
    simp only [Function.comp_apply]
    split <;> rfl
  · have hk' : k ∉ (d.map f).keys := by rwa [keys_map]
    rw [entries_map, insert_new v hk, insert_new (f v) hk', entries_map, List.map_append]
    rfl

/-- Through a table of references of which no two are one, writing behind one of them
writes its entry. -/
theorem map_update {ρ : Type} [DecidableEq ρ] {d : Dict κ ρ} {heap : ρ → β} {k : κ} {ref : ρ}
    (hnodup : (d.entries.map Prod.snd).Nodup) (hget : d.get? k = some ref) (v : β) :
    d.map (Function.update heap ref v) = (d.map heap).insert k v := by
  have hmem := get?_eq_some.mp hget
  have hk : k ∈ (d.map heap).keys := by
    rw [keys_map]
    exact List.mem_map_of_mem hmem
  apply ext
  rw [insert_old v hk, entries_map, entries_map, List.map_map]
  apply List.map_congr_left
  intro e he
  simp only [Function.comp_apply]
  by_cases hkey : e.1 = k
  · have heq : e = (k, ref) := List.inj_on_of_nodup_map d.nodup he hmem hkey
    rw [heq, if_pos rfl, Function.update_self]
  · have hne : e.2 ≠ ref := by
      intro href
      exact hkey (congrArg Prod.fst (List.inj_on_of_nodup_map hnodup he hmem href))
    rw [if_neg hkey, Function.update_of_ne hne]

end Map

/-! ## Entries in any order -/

section Perm

variable {κ α : Type} [DecidableEq κ]

theorem perm_insert (d : Dict κ α) (k : κ) (v : α) :
    (d.insert k v).entries.Perm ((k, v) :: (d.erase k).entries) := by
  have hnodup : ((k, v) :: (d.erase k).entries).Nodup := by
    rw [List.nodup_cons]
    exact ⟨by simp [erase], List.Nodup.of_map _ (d.erase k).nodup⟩
  rw [List.perm_ext_iff_of_nodup (List.Nodup.of_map _ (d.insert k v).nodup) hnodup]
  rintro ⟨k', v'⟩
  rw [mem_entries_insert]
  simp [erase, and_comm]

theorem perm_erase {d : Dict κ α} {k : κ} {v : α} (h : d.get? k = some v) :
    d.entries.Perm ((k, v) :: (d.erase k).entries) := by
  have hnodup : ((k, v) :: (d.erase k).entries).Nodup := by
    rw [List.nodup_cons]
    exact ⟨by simp [erase], List.Nodup.of_map _ (d.erase k).nodup⟩
  rw [List.perm_ext_iff_of_nodup (List.Nodup.of_map _ d.nodup) hnodup]
  have hmem := get?_eq_some.mp h
  rintro ⟨k', v'⟩
  simp only [erase, List.mem_cons, List.mem_filter, decide_eq_true_eq, Prod.mk.injEq]
  constructor
  · intro hentry
    by_cases hkey : k' = k
    · subst hkey
      have hsome := get?_eq_some.mpr hentry
      rw [h, Option.some.injEq] at hsome
      exact Or.inl ⟨rfl, hsome.symm⟩
    · exact Or.inr ⟨hentry, hkey⟩
  · rintro (⟨rfl, rfl⟩ | ⟨hentry, -⟩)
    · exact hmem
    · exact hentry

/-! ### Entries that stay apart -/

/-- Every entry of one dictionary is one of the other. -/
def Sub (d e : Dict κ α) : Prop := ∀ k v, d.get? k = some v → e.get? k = some v

theorem Sub.rfl {d : Dict κ α} : d.Sub d := fun _ _ h => h

theorem Sub.trans {d e f : Dict κ α} (h : d.Sub e) (h' : e.Sub f) : d.Sub f :=
  fun k v hget => h' k v (h k v hget)

theorem erase_sub (d : Dict κ α) (k : κ) : (d.erase k).Sub d := by
  intro k' v h
  rw [get?_erase] at h
  split_ifs at h
  exact h

/-- The values of different keys are not related. -/
def Apart (r : α → α → Prop) (d : Dict κ α) : Prop :=
  ∀ k k' v v', d.get? k = some v → d.get? k' = some v' → k ≠ k' → ¬ r v v'

theorem Apart.empty (r : α → α → Prop) : (Dict.empty : Dict κ α).Apart r := by
  intro k k' v v' h
  cases h

theorem Apart.sub {r : α → α → Prop} {d e : Dict κ α} (h : e.Apart r) (hsub : d.Sub e) :
    d.Apart r :=
  fun k k' v v' hv hv' => h k k' v v' (hsub k v hv) (hsub k' v' hv')

theorem Apart.insert {r : α → α → Prop} (hsymm : ∀ v v', r v v' → r v' v) {d : Dict κ α}
    (h : d.Apart r) {k : κ} {v : α} (hnew : ∀ k' v', k' ≠ k → d.get? k' = some v' → ¬ r v' v) :
    (d.insert k v).Apart r := by
  intro i j w w' hw hw' hne
  rw [get?_insert] at hw hw'
  split_ifs at hw hw' with hi hj hj
  · exact absurd (hi.trans hj.symm) hne
  · cases hw
    exact fun hr => hnew j w' hj hw' (hsymm _ _ hr)
  · cases hw'
    exact hnew i w hi hw
  · exact h i j w w' hw hw' hne

theorem erase_of_notMem {d : Dict κ α} {k : κ} (h : k ∉ d.keys) : d.erase k = d := by
  apply ext
  apply List.filter_eq_self.mpr
  intro e he
  rw [decide_eq_true_eq]
  intro heq
  exact h (heq ▸ List.mem_map_of_mem he)

end Perm

variable {α : Type}

/-- `sorted(d.items())`. -/
def sorted (d : Dict Nat α) : List (Nat × α) := d.entries.mergeSort fun a b => a.1 ≤ b.1

theorem sorted_perm (d : Dict Nat α) : d.sorted.Perm d.entries := List.mergeSort_perm _ _

/-- The keys of the sorted items ascend strictly. -/
theorem sorted_strict (d : Dict Nat α) : (d.sorted.map Prod.fst).Pairwise (· < ·) := by
  have hle : d.sorted.Pairwise fun a b => a.1 ≤ b.1 :=
    pairwise_mergeSort_rel (fun a b c (hab : a.1 ≤ b.1) (hbc : b.1 ≤ c.1) => Nat.le_trans hab hbc)
      (fun a b => Nat.le_total a.1 b.1) d.entries
  have hnodup : (d.sorted.map Prod.fst).Nodup :=
    ((d.sorted_perm.map Prod.fst).nodup_iff).mpr d.nodup
  rw [List.pairwise_map]
  rw [List.Nodup, List.pairwise_map] at hnodup
  exact (hle.and hnodup).imp fun h => by omega

/-- `dict(sorted(d.items()))`. -/
def ascending (d : Dict Nat α) : Dict Nat α :=
  ⟨d.sorted, ((d.sorted_perm.map Prod.fst).nodup_iff).mpr d.nodup⟩

theorem get?_ascending (d : Dict Nat α) (k : Nat) : d.ascending.get? k = d.get? k :=
  same_of_perm d.sorted_perm k

/-- Items that ascend already stay in place. -/
theorem sorted_of_pairwise {d : Dict Nat α} (h : d.entries.Pairwise fun a b => a.1 ≤ b.1) :
    d.sorted = d.entries :=
  List.mergeSort_of_pairwise (h.imp fun hle => decide_eq_true hle)

end Dict

end AioMoqt.Lib
