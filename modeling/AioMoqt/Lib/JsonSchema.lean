import Mathlib.Data.List.Forall2
import Mathlib.Data.Rat.Defs

/-!
# JSON Schema

The part of JSON Schema 2020-12 that describes records: types, enumerations of strings, bounds,
properties, references to definitions, and conditions.  Annotations take no part in validation.
-/

namespace AioMoqt.Lib

theorem mem_map_fst_iff_lookup {α : Type} {entries : List (String × α)} {name : String} :
    name ∈ entries.map Prod.fst ↔ entries.lookup name ≠ none := by
  rw [← not_iff_not, not_not, List.lookup_eq_none_iff]
  simp only [List.mem_map, bne_iff_ne, not_exists, not_and, ne_comm]

/-- A JSON value; a number is written as an integer or with a fraction. -/
inductive JsonValue where
  | null
  | bool (b : Bool)
  | int (n : Int)
  | float (x : Rat)
  | str (s : String)
  | arr (items : List JsonValue)
  | obj (entries : List (String × JsonValue))

namespace JsonValue

/-- The member of an object. -/
def get? : JsonValue → String → Option JsonValue
  | obj entries, name => entries.lookup name
  | _, _ => none

/-- The names of an object's members. -/
def keys : JsonValue → List String
  | obj entries => entries.map Prod.fst
  | _ => []

def isObj : JsonValue → Bool
  | obj _ => true
  | _ => false

mutual

/-- How deep a value is nested. -/
def depth : JsonValue → Nat
  | arr items => depthItems items + 1
  | obj entries => depthEntries entries + 1
  | _ => 0

def depthItems : List JsonValue → Nat
  | [] => 0
  | v :: items => max (depth v) (depthItems items)

def depthEntries : List (String × JsonValue) → Nat
  | [] => 0
  | (_, v) :: entries => max (depth v) (depthEntries entries)

end

/-- The value of a number. -/
def number? : JsonValue → Option Rat
  | int n => some n
  | float x => some x
  | _ => none

/-- Whether it is one of some texts. -/
def oneOf (values : List String) : JsonValue → Bool
  | str s => s ∈ values
  | _ => false

theorem oneOf_eq_true {values : List String} {v : JsonValue} :
    v.oneOf values = true ↔ ∃ s ∈ values, v = str s := by
  cases v <;> simp [oneOf]

theorem depth_get?_lt {v x : JsonValue} {name : String} (h : v.get? name = some x) :
    x.depth < v.depth := by
  cases v with
  | obj entries =>
      rw [depth, Nat.lt_succ_iff]
      rw [get?] at h
      induction entries with
      | nil => cases h
      | cons entry entries ih =>
          rw [List.lookup_cons] at h
          rw [depthEntries]
          split at h
          · obtain rfl := Option.some.inj h
            exact le_max_left _ _
          · exact (ih h).trans (le_max_right _ _)
  | _ => cases h

end JsonValue

namespace JsonSchema

/-- The values of `type`. -/
inductive JsonType where
  | null
  | boolean
  | integer
  | number
  | string
  | array
  | object
  deriving DecidableEq, Repr

/-- Whether a value has a type; an integer is any number without a fraction. -/
def JsonType.has : JsonType → JsonValue → Bool
  | null, .null => true
  | boolean, .bool _ => true
  | integer, v => v.number?.any fun x => x.den = 1
  | number, v => v.number?.isSome
  | string, .str _ => true
  | array, .arr _ => true
  | object, v => v.isObj
  | _, _ => false

/-- A schema, with references to definitions that are named by `κ`. -/
structure Schema (κ : Type) where
  type : Option JsonType := none
  enum : Option (List String) := none
  const : Option String := none
  minimum : Option Int := none
  maximum : Option Int := none
  properties : List (String × Schema κ) := []
  required : List String := []
  closed : Bool := false
  ref : Option κ := none
  allOf : List (Schema κ) := []
  condition : Option (Schema κ × Schema κ) := none

/-! ## Validation -/

/-- All of them, where each is decided. -/
def decided : List (Option Bool) → Option Bool
  | [] => some true
  | x :: xs => x.bind fun a => (decided xs).map (a && ·)

/-- The keywords that look at the value alone. -/
def Schema.plain {κ : Type} (s : Schema κ) (v : JsonValue) : Bool :=
  s.type.all (·.has v) &&
    s.enum.all (v.oneOf ·) &&
    s.const.all (fun value => v.oneOf [value]) &&
    s.minimum.all (fun least : Int => v.number?.all fun x => (least : Rat) ≤ x) &&
    s.maximum.all (fun most : Int => v.number?.all fun x => x ≤ (most : Rat)) &&
    (!v.isObj || s.required.all (fun name => (v.get? name).isSome)) &&
    (!s.closed || v.keys.all fun name => name ∈ s.properties.map Prod.fst)

/-- Validation, as far as the fuel lasts. -/
def check {κ : Type} (defs : κ → Option (Schema κ)) : Nat → Schema κ → JsonValue → Option Bool
  | 0, _, _ => none
  | fuel + 1, s, v =>
      decided [
        some (s.plain v),
        decided (s.properties.map fun property =>
          match v.get? property.1 with
          | none => some true
          | some x => check defs fuel property.2 x),
        match s.ref with
        | none => some true
        | some k => (defs k).bind fun s => check defs fuel s v,
        decided (s.allOf.map fun s => check defs fuel s v),
        match s.condition with
        | none => some true
        | some (test, consequence) =>
            match check defs fuel test v with
            | none => none
            | some false => some true
            | some true => check defs fuel consequence v]

variable {κ : Type} {defs : κ → Option (Schema κ)} {s : Schema κ} {v : JsonValue} {fuel : Nat}

/-- The schema validates the value. -/
def Validates (defs : κ → Option (Schema κ)) (s : Schema κ) (v : JsonValue) : Prop :=
  ∃ fuel, check defs fuel s v = some true

/-- The schema says of the value whether it is valid. -/
def Decides (defs : κ → Option (Schema κ)) (s : Schema κ) (v : JsonValue) : Prop :=
  ∃ fuel b, check defs fuel s v = some b

theorem decided_cons {x : Option Bool} {xs : List (Option Bool)} {b : Bool} :
    decided (x :: xs) = some b ↔ ∃ a c, x = some a ∧ decided xs = some c ∧ (a && c) = b := by
  rw [decided, Option.bind_eq_some_iff]
  constructor
  · rintro ⟨a, ha, hrest⟩
    obtain ⟨c, hc, heq⟩ := Option.map_eq_some_iff.mp hrest
    exact ⟨a, c, ha, hc, heq⟩
  · rintro ⟨a, c, ha, hc, heq⟩
    exact ⟨a, ha, Option.map_eq_some_iff.mpr ⟨c, hc, heq⟩⟩

theorem decided_eq_true {xs : List (Option Bool)} :
    decided xs = some true ↔ ∀ x ∈ xs, x = some true := by
  induction xs with
  | nil => exact iff_of_true rfl nofun
  | cons x xs ih =>
      rw [List.forall_mem_cons, ← ih, decided_cons]
      constructor
      · rintro ⟨a, c, ha, hc, heq⟩
        obtain ⟨rfl, rfl⟩ := Bool.and_eq_true_iff.mp heq
        exact ⟨ha, hc⟩
      · exact fun ⟨ha, hc⟩ => ⟨true, true, ha, hc, rfl⟩

/-- Where each is decided as it was, so are all. -/
theorem decided_mono {xs ys : List (Option Bool)}
    (h : List.Forall₂ (fun x y => ∀ b, x = some b → y = some b) xs ys) {b : Bool}
    (hxs : decided xs = some b) : decided ys = some b := by
  induction h generalizing b with
  | nil => exact hxs
  | cons hxy _ ih =>
      obtain ⟨a, c, ha, hc, heq⟩ := decided_cons.mp hxs
      exact decided_cons.mpr ⟨a, c, hxy a ha, ih hc, heq⟩

/-- More fuel changes no answer. -/
theorem check_succ {b : Bool} (h : check defs fuel s v = some b) :
    check defs (fuel + 1) s v = some b := by
  induction fuel generalizing s v b with
  | zero => cases h
  | succ fuel ih =>
      rw [check] at h ⊢
      refine decided_mono ?_ h
      refine .cons (fun _ => id) (.cons ?_ (.cons ?_ (.cons ?_ (.cons ?_ .nil))))
      · intro c hc
        refine decided_mono ?_ hc
        rw [List.forall₂_map_left_iff, List.forall₂_map_right_iff, List.forall₂_same]
        intro property _ d hd
        split at hd
        · exact hd
        · exact ih hd
      · intro c hc
        split at hc
        · exact hc
        · rw [Option.bind_eq_some_iff] at hc ⊢
          obtain ⟨s', hs', hc⟩ := hc
          exact ⟨s', hs', ih hc⟩
      · intro c hc
        refine decided_mono ?_ hc
        rw [List.forall₂_map_left_iff, List.forall₂_map_right_iff, List.forall₂_same]
        exact fun _ _ _ => ih
      · intro c hc
        split at hc
        · exact hc
        next test consequence heq =>
          cases htest : check defs fuel test v with
          | none =>
              rw [htest] at hc
              cases hc
          | some d =>
              rw [htest] at hc
              rw [ih htest]
              cases d with
              | false => exact hc
              | true => exact ih hc

theorem check_mono {more : Nat} {b : Bool} (hle : fuel ≤ more)
    (h : check defs fuel s v = some b) : check defs more s v = some b := by
  induction more, hle using Nat.le_induction with
  | base => exact h
  | succ more _ ih => exact check_succ ih

theorem check_unique {more : Nat} {b c : Bool} (h : check defs fuel s v = some b)
    (h' : check defs more s v = some c) : b = c := by
  have hb := check_mono (Nat.le_max_left fuel more) h
  have hc := check_mono (Nat.le_max_right fuel more) h'
  exact Option.some.inj (hb.symm.trans hc)

/-- Fuel that is enough for each is enough for all. -/
theorem exists_fuel {α : Type} (xs : List α) (p : α → Nat → Prop)
    (hmono : ∀ x n m, n ≤ m → p x n → p x m) (h : ∀ x ∈ xs, ∃ n, p x n) :
    ∃ n, ∀ x ∈ xs, p x n := by
  induction xs with
  | nil => exact ⟨0, nofun⟩
  | cons x xs ih =>
      obtain ⟨n, hn⟩ := h x List.mem_cons_self
      obtain ⟨m, hm⟩ := ih fun y hy => h y (List.mem_cons_of_mem x hy)
      refine ⟨max n m, fun y hy => ?_⟩
      rcases List.mem_cons.mp hy with rfl | hy
      · exact hmono y n _ (le_max_left n m) hn
      · exact hmono y m _ (le_max_right n m) (hm y hy)

/-- A value is valid when each keyword finds it so. -/
theorem validates_iff : Validates defs s v ↔
    s.plain v = true ∧
      (∀ property ∈ s.properties, ∀ x ∈ v.get? property.1, Validates defs property.2 x) ∧
      (∀ k ∈ s.ref, ∃ s' ∈ defs k, Validates defs s' v) ∧
      (∀ s' ∈ s.allOf, Validates defs s' v) ∧
      ∀ test consequence, s.condition = some (test, consequence) →
        Decides defs test v ∧ (Validates defs test v → Validates defs consequence v) := by
  constructor
  · rintro ⟨fuel, h⟩
    cases fuel with
    | zero => cases h
    | succ fuel =>
        rw [check, decided_eq_true] at h
        simp only [List.forall_mem_cons, List.not_mem_nil, false_imp_iff, implies_true, and_true,
          decided_eq_true, List.forall_mem_map, Option.some.injEq] at h
        obtain ⟨hplain, hproperties, href, hall, hcondition⟩ := h
        refine ⟨hplain, ?_, ?_, fun s' hs' => ⟨fuel, hall s' hs'⟩, ?_⟩
        · intro property hproperty x hx
          have hcheck := hproperties property hproperty
          rw [Option.mem_def.mp hx] at hcheck
          exact ⟨fuel, hcheck⟩
        · intro k hk
          rw [Option.mem_def.mp hk] at href
          obtain ⟨s', hs', hcheck⟩ := Option.bind_eq_some_iff.mp href
          exact ⟨s', hs', fuel, hcheck⟩
        · intro test consequence heq
          rw [heq] at hcondition
          dsimp only at hcondition
          cases htest : check defs fuel test v with
          | none =>
              rw [htest] at hcondition
              cases hcondition
          | some b =>
              refine ⟨⟨fuel, b, htest⟩, ?_⟩
              rintro ⟨more, hmore⟩
              obtain rfl := check_unique hmore htest
              rw [htest] at hcondition
              exact ⟨fuel, hcondition⟩
  · rintro ⟨hplain, hproperties, href, hall, hcondition⟩
    obtain ⟨n₁, h₁⟩ := exists_fuel s.properties
      (fun property n => ∀ x ∈ v.get? property.1, check defs n property.2 x = some true)
      (fun property n m hle h x hx => check_mono hle (h x hx))
      (by
        intro property hproperty
        cases hx : v.get? property.1 with
        | none => exact ⟨0, nofun⟩
        | some x =>
            obtain ⟨n, hn⟩ := hproperties property hproperty x hx
            refine ⟨n, fun y hy => ?_⟩
            obtain rfl := Option.some.inj hy
            exact hn)
    obtain ⟨n₂, h₂⟩ : ∃ n, ∀ k ∈ s.ref, ∃ s' ∈ defs k, check defs n s' v = some true := by
      cases hk : s.ref with
      | none => exact ⟨0, nofun⟩
      | some k =>
          obtain ⟨s', hs', n, hn⟩ := href k hk
          refine ⟨n, fun k' hk' => ?_⟩
          obtain rfl := Option.some.inj hk'
          exact ⟨s', hs', hn⟩
    obtain ⟨n₃, h₃⟩ := exists_fuel s.allOf (fun s' n => check defs n s' v = some true)
      (fun s' n m => check_mono) hall
    obtain ⟨n₄, h₄⟩ : ∃ n, ∀ test consequence, s.condition = some (test, consequence) →
        check defs n test v = some false ∨
          check defs n test v = some true ∧ check defs n consequence v = some true := by
      cases hc : s.condition with
      | none => exact ⟨0, nofun⟩
      | some both =>
          obtain ⟨test, consequence⟩ := both
          obtain ⟨⟨n, b, hb⟩, himp⟩ := hcondition test consequence hc
          cases b with
          | false =>
              refine ⟨n, fun _ _ heq => ?_⟩
              obtain ⟨rfl, rfl⟩ := Prod.mk.inj (Option.some.inj heq)
              exact Or.inl hb
          | true =>
              obtain ⟨m, hm⟩ := himp ⟨n, hb⟩
              refine ⟨max n m, fun _ _ heq => ?_⟩
              obtain ⟨rfl, rfl⟩ := Prod.mk.inj (Option.some.inj heq)
              exact Or.inr ⟨check_mono (le_max_left n m) hb, check_mono (le_max_right n m) hm⟩
    set n := max (max n₁ n₂) (max n₃ n₄)
    refine ⟨n + 1, ?_⟩
    rw [check, decided_eq_true]
    simp only [List.forall_mem_cons, List.not_mem_nil, false_imp_iff, implies_true, and_true,
      decided_eq_true, List.forall_mem_map, Option.some.injEq]
    refine ⟨hplain, ?_, ?_, ?_, ?_⟩
    · intro property hproperty
      split
      · rfl
      next x hx => exact check_mono (by omega) (h₁ property hproperty x hx)
    · split
      · rfl
      next k hk =>
        obtain ⟨s', hs', hcheck⟩ := h₂ k hk
        exact Option.bind_eq_some_iff.mpr ⟨s', hs', check_mono (by omega) hcheck⟩
    · exact fun s' hs' => check_mono (by omega) (h₃ s' hs')
    · split
      · rfl
      next test consequence heq =>
        rcases h₄ test consequence heq with hfalse | ⟨htrue, hthen⟩
        · rw [check_mono (show n₄ ≤ n by omega) hfalse]
        · rw [check_mono (show n₄ ≤ n by omega) htrue]
          exact check_mono (by omega) hthen

/-! ## Schemas without references -/

/-- A schema whose keywords look at the value alone. -/
structure Schema.Flat (s : Schema κ) : Prop where
  properties : s.properties = []
  ref : s.ref = none
  allOf : s.allOf = []
  condition : s.condition = none

theorem Schema.Flat.check (h : s.Flat) : check defs (fuel + 1) s v = some (s.plain v) := by
  rw [JsonSchema.check, h.properties, h.ref, h.allOf, h.condition]
  simp [decided]

theorem Schema.Flat.validates (h : s.Flat) : Validates defs s v ↔ s.plain v = true := by
  have hone : JsonSchema.check defs 1 s v = some (s.plain v) := h.check
  constructor
  · exact fun ⟨fuel, hcheck⟩ => check_unique hone hcheck
  · exact fun hplain => ⟨1, hplain ▸ hone⟩

theorem plain_const {text : String} :
    ({ const := some text } : Schema κ).plain v = true ↔ v = .str text := by
  simp [Schema.plain, JsonValue.oneOf_eq_true]

theorem plain_enum {values : List String} :
    ({ enum := some values } : Schema κ).plain v = true ↔ ∃ text ∈ values, v = .str text := by
  simp [Schema.plain, JsonValue.oneOf_eq_true]

theorem validates_required {names : List String} (hobj : v.isObj = true) :
    Validates defs { required := names } v ↔ ∀ name ∈ names, v.get? name ≠ none := by
  have hflat : ({ required := names } : Schema κ).Flat := ⟨rfl, rfl, rfl, rfl⟩
  rw [hflat.validates]
  simp [Schema.plain, hobj, Option.isSome_iff_ne_none]

theorem validates_properties {properties : List (String × Schema κ)} :
    Validates defs { properties := properties } v ↔
      ∀ property ∈ properties, ∀ x ∈ v.get? property.1, Validates defs property.2 x := by
  rw [validates_iff]
  simp [Schema.plain]

/-- An object that has a member, and the member is valid. -/
theorem check_member {name : String} (h : s.Flat) (hobj : v.isObj = true) :
    check defs (fuel + 2) { properties := [(name, s)], required := [name] } v =
      some ((v.get? name).any (s.plain ·)) := by
  rw [check]
  cases hget : v.get? name with
  | none => simp [decided, Schema.plain, hget, hobj]
  | some x => simp [decided, Schema.plain, hget, hobj, h.check]

/-- A condition on a member of an object. -/
theorem validates_condition {name : String} {consequence : Schema κ} (h : s.Flat)
    (hobj : v.isObj = true) :
    Validates defs
        { condition := some ({ properties := [(name, s)], required := [name] }, consequence) } v ↔
      ((∃ x ∈ v.get? name, s.plain x = true) → Validates defs consequence v) := by
  have hany : (v.get? name).any (s.plain ·) = true ↔ ∃ x ∈ v.get? name, s.plain x = true := by
    cases v.get? name <;> simp
  have htest : Validates defs { properties := [(name, s)], required := [name] } v ↔
      ∃ x ∈ v.get? name, s.plain x = true := by
    have htwo : check defs 2 { properties := [(name, s)], required := [name] } v =
        some ((v.get? name).any (s.plain ·)) := check_member h hobj
    rw [← hany]
    constructor
    · exact fun ⟨fuel, hcheck⟩ => check_unique htwo hcheck
    · exact fun hmember => ⟨2, hmember ▸ htwo⟩
  rw [validates_iff, ← htest]
  constructor
  · rintro ⟨-, -, -, -, hcondition⟩
    exact (hcondition _ _ rfl).2
  · intro himp
    refine ⟨?_, nofun, nofun, nofun, ?_⟩
    · simp [Schema.plain]
    · intro test consequence' heq
      obtain ⟨rfl, rfl⟩ := Prod.mk.inj (Option.some.inj heq)
      exact ⟨⟨2, _, check_member h hobj⟩, himp⟩

end JsonSchema

end AioMoqt.Lib
