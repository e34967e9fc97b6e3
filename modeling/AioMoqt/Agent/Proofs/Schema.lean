import AioMoqt.Agent.Schema

/-!
# The definitions of a schema

What `json_schema` publishes: the schema of the class, and one for each class that it leads to.
-/

namespace AioMoqt.Agent

open AioMoqt.Lib AioMoqt.Lib.JsonSchema

/-! ## One class -/

section Node

variable {κ : Type}

/-- The node of a field. -/
def Field.node (f : Field κ) : Schema κ := (fieldSchema (fun _ defs => defs) f Dict.empty).1

/-- The spec class that a field holds. -/
def Field.target? (f : Field κ) : Option κ :=
  match f.target with
  | .spec cls => some cls
  | _ => none

/-- The spec classes that the fields of a class hold. -/
def SpecClass.targets (cls : SpecClass κ) : List κ := cls.fields.filterMap Field.target?

/-- The schema of a class. -/
def SpecClass.schema (cls : SpecClass κ) : Schema κ :=
  { type := some .object, properties := cls.fields.map fun f => (f.name, f.node), closed := true,
    required := cls.required, allOf := cls.schemaConstraints }

theorem SpecClass.mem_targets {cls : SpecClass κ} {k : κ} :
    k ∈ cls.targets ↔ ∃ f ∈ cls.fields, f.target = .spec k := by
  rw [targets, List.mem_filterMap]
  refine exists_congr fun f => and_congr_right fun _ => ?_
  rw [Field.target?]
  cases f.target <;> simp

variable {collect : κ → Dict κ (Schema κ) → Dict κ (Schema κ)}

theorem fieldSchema_eq (f : Field κ) (defs : Dict κ (Schema κ)) :
    fieldSchema collect f defs =
      (f.node, f.target?.toList.foldl (fun defs k => collect k defs) defs) := by
  rw [Field.node, Field.target?, fieldSchema, fieldSchema]
  cases f.target <;> rfl

theorem collectFields_eq (fields : List (Field κ)) (defs : Dict κ (Schema κ)) :
    collectFields collect fields defs =
      (fields.map fun f => (f.name, f.node),
        (fields.filterMap Field.target?).foldl (fun defs k => collect k defs) defs) := by
  induction fields generalizing defs with
  | nil => rfl
  | cons f fields ih =>
      rw [collectFields, fieldSchema_eq]
      dsimp only
      rw [ih]
      cases hf : f.target? with
      | none => rw [List.filterMap_cons_none hf, List.map_cons, Option.toList_none, List.foldl_nil]
      | some k =>
          rw [List.filterMap_cons_some hf, List.map_cons, List.foldl_cons, Option.toList_some,
            List.foldl_cons, List.foldl_nil]

end Node

/-! ## All classes -/

section Collect

variable {κ : Type} [DecidableEq κ] {reg : Registry κ} {defs defs' defs'' : Dict κ (Schema κ)}

/-- The definitions have grown by whole classes, with all that these lead to. -/
structure Grown (reg : Registry κ) (defs defs' : Dict κ (Schema κ)) : Prop where
  kept : ∀ k ∈ defs.keys, defs'.get? k = defs.get? k
  new : ∀ k ∈ defs'.keys, k ∉ defs.keys →
    defs'.get? k = some (reg.cls k).schema ∧ ∀ t ∈ (reg.cls k).targets, t ∈ defs'.keys

namespace Grown

theorem rfl : Grown reg defs defs where
  kept := fun _ _ => Eq.refl _
  new := fun _ h h' => absurd h h'

theorem keys (h : Grown reg defs defs') {k : κ} (hk : k ∈ defs.keys) : k ∈ defs'.keys := by
  rw [Dict.mem_keys] at hk ⊢
  rwa [h.kept k (Dict.mem_keys.mpr hk)]

theorem trans (h : Grown reg defs defs') (h' : Grown reg defs' defs'') : Grown reg defs defs'' where
  kept := fun k hk => (h'.kept k (h.keys hk)).trans (h.kept k hk)
  new := by
    intro k hk hnew
    by_cases hk' : k ∈ defs'.keys
    · obtain ⟨hget, htargets⟩ := h.new k hk' hnew
      exact ⟨(h'.kept k hk').trans hget, fun t ht => h'.keys (htargets t ht)⟩
    · exact h'.new k hk hk'

/-- A class is put in place behind all that it leads to. -/
theorem close {k : κ} (hk : k ∉ defs.keys) (h : Grown reg (defs.insert k {}) defs')
    (htargets : ∀ t ∈ (reg.cls k).targets, t ∈ defs'.keys) :
    Grown reg defs (defs'.insert k (reg.cls k).schema) := by
  have hsub : ∀ k' ∈ defs'.keys, k' ∈ (defs'.insert k (reg.cls k).schema).keys :=
    fun k' hk' => Dict.mem_keys_insert.mpr (Or.inr hk')
  constructor
  · intro k' hk'
    have hne : k' ≠ k := fun heq => hk (heq ▸ hk')
    rw [Dict.get?_insert, if_neg hne, h.kept k' (Dict.mem_keys_insert.mpr (Or.inr hk')),
      Dict.get?_insert, if_neg hne]
  · intro k' hk' hnew
    by_cases heq : k' = k
    · subst heq
      rw [Dict.get?_insert, if_pos (Eq.refl _)]
      exact ⟨Eq.refl _, fun t ht => hsub t (htargets t ht)⟩
    · have hk'' : k' ∈ defs'.keys := (Dict.mem_keys_insert.mp hk').resolve_left heq
      have hnew' : k' ∉ (defs.insert k {}).keys := fun hmem =>
        (Dict.mem_keys_insert.mp hmem).elim heq hnew
      obtain ⟨hget, hall⟩ := h.new k' hk'' hnew'
      rw [Dict.get?_insert, if_neg heq]
      exact ⟨hget, fun t ht => hsub t (hall t ht)⟩

end Grown

/-- How many classes are still to come. -/
def room (reg : Registry κ) (defs : Dict κ (Schema κ)) : Nat :=
  (reg.all.filter fun k => k ∉ defs.keys).length

theorem room_le (reg : Registry κ) (h : ∀ k ∈ defs.keys, k ∈ defs'.keys) :
    room reg defs' ≤ room reg defs := by
  refine (List.monotone_filter_right reg.all fun k hk => ?_).length_le
  rw [decide_eq_true_eq] at hk ⊢
  exact fun hmem => hk (h k hmem)

theorem room_insert (reg : Registry κ) {k : κ} {s : Schema κ} (hk : k ∉ defs.keys) :
    room reg (defs.insert k s) < room reg defs := by
  have hsplit : (reg.all.filter fun k' => k' ∉ (defs.insert k s).keys) =
      (reg.all.filter fun k' => k' ∉ defs.keys).filter fun k' => k' ≠ k := by
    rw [List.filter_filter]
    refine List.filter_congr fun k' _ => ?_
    simp only [Dict.mem_keys_insert, not_or, Bool.decide_and, ne_eq]
  rw [room, hsplit]
  refine List.length_filter_lt_length_iff_exists.mpr ⟨k, ?_, by simp⟩
  exact List.mem_filter.mpr ⟨reg.mem_all k, decide_eq_true hk⟩

/-- With fuel for every class to come, a class and all that it leads to are defined. -/
theorem collectWithin_grown {fuel : Nat} {k : κ} (hfuel : room reg defs < fuel) :
    Grown reg defs (collectWithin reg fuel k defs) ∧ k ∈ (collectWithin reg fuel k defs).keys := by
  induction fuel generalizing k defs with
  | zero => exact absurd hfuel (Nat.not_lt_zero _)
  | succ fuel ih =>
      rw [collectWithin]
      split
      · next hk => exact ⟨Grown.rfl, hk⟩
      · next hk =>
        dsimp only
        rw [collectFields_eq]
        -- the classes that the fields hold, one after the other
        have hfold : ∀ (targets : List κ) (defs' : Dict κ (Schema κ)),
            Grown reg (defs.insert k {}) defs' →
            Grown reg (defs.insert k {})
                (targets.foldl (fun defs k => collectWithin reg fuel k defs) defs') ∧
              (∀ t ∈ defs'.keys,
                t ∈ (targets.foldl (fun defs k => collectWithin reg fuel k defs) defs').keys) ∧
              ∀ t ∈ targets,
                t ∈ (targets.foldl (fun defs k => collectWithin reg fuel k defs) defs').keys := by
          intro targets
          induction targets with
          | nil => exact fun defs' h => ⟨h, fun _ => id, nofun⟩
          | cons t targets ih' =>
              intro defs' h
              have hroom : room reg defs' < fuel := by
                have hle := room_le reg fun _ => h.keys
                have hlt := room_insert reg (s := {}) hk
                omega
              obtain ⟨hgrown, hmem⟩ := ih (k := t) hroom
              obtain ⟨hall, hkeys, htargets⟩ := ih' _ (h.trans hgrown)
              refine ⟨hall, fun k' hk' => hkeys k' (hgrown.keys hk'), ?_⟩
              rw [List.forall_mem_cons]
              exact ⟨hkeys t hmem, htargets⟩
        obtain ⟨hgrown, -, htargets⟩ := hfold (reg.cls k).targets _ Grown.rfl
        exact ⟨hgrown.close hk htargets, Dict.mem_keys_insert.mpr (Or.inl rfl)⟩

/-- The published schema is that of the class; the definitions are those of the classes that it
leads to, without itself. -/
theorem jsonSchema_spec (reg : Registry κ) (k : κ) :
    (jsonSchema reg k).1 = (reg.cls k).schema ∧
      (∀ t ∈ (reg.cls k).targets, t ≠ k →
        (jsonSchema reg k).2.get? t = some (reg.cls t).schema) ∧
      (jsonSchema reg k).2.get? k = none := by
  have hroom : room reg (Dict.empty : Dict κ (Schema κ)) < reg.all.length + 1 :=
    Nat.lt_succ_of_le (List.length_filter_le _ _)
  obtain ⟨hgrown, hmem⟩ := collectWithin_grown (k := k) hroom
  have hnew : ∀ t ∈ (collect reg k Dict.empty).keys,
      (collect reg k Dict.empty).get? t = some (reg.cls t).schema ∧
        ∀ t' ∈ (reg.cls t).targets, t' ∈ (collect reg k Dict.empty).keys :=
    fun t ht => hgrown.new t ht nofun
  refine ⟨?_, ?_, ?_⟩
  · rw [jsonSchema]
    dsimp only
    rw [(hnew k hmem).1, Option.getD_some]
  · intro t ht hne
    rw [jsonSchema]
    dsimp only
    rw [Dict.get?_erase, if_neg hne]
    exact (hnew t ((hnew k hmem).2 t ht)).1
  · rw [jsonSchema]
    dsimp only
    rw [Dict.get?_erase, if_pos rfl]

end Collect

end AioMoqt.Agent
