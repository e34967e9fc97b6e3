import Mathlib.Algebra.Order.Ring.Cast
import Mathlib.Algebra.Order.Ring.Int
import Mathlib.Algebra.Order.Ring.Rat
import AioMoqt.Agent.Agreement
import AioMoqt.Agent.Proofs.Reading
import AioMoqt.Agent.Proofs.Schema

/-!
# One field in schema and reader

A field's node, `_coerce`, `_validate` and `check_instance` say the same of a value that is no
nested spec.
-/

namespace AioMoqt.Agent

open AioMoqt.Lib AioMoqt.Lib.JsonSchema AioMoqt.Lib.Reader

variable {κ : Type}

/-! ## A value in Python and in JSON -/

/-- A JSON value stands for an attribute. -/
inductive Carries : JsonValue → Attr κ → Prop
  | bool (b : Bool) : Carries (.bool b) (.bool b)
  | str (s : String) : Carries (.str s) (.str s)
  | int {v : JsonValue} {n : Int} : v.number? = some (n : Rat) → Carries v (.int n)
  | float {v : JsonValue} {x : Rat} : v.number? = some x → Carries v (.float (.finite x))

/-- The choices and the range of a field let a value through. -/
structure Field.Fits (f : Field κ) (a : Attr κ) : Prop where
  chosen : ∀ values ∈ f.choices, ∃ s ∈ values, a = .str s
  least : ∀ range ∈ f.range, ∀ lo ∈ range.minimum, a.lessThan lo = false
  most : ∀ range ∈ f.range, ∀ hi ∈ range.maximum, a.exceeds hi = false

/-- The same of the JSON value, as the schema has it. -/
structure Field.Marks (f : Field κ) (v : JsonValue) : Prop where
  chosen : ∀ values ∈ f.choices, ∃ s ∈ values, v = .str s
  least : ∀ range ∈ f.range, ∀ lo ∈ range.minimum, ∀ x ∈ v.number?, (lo : Rat) ≤ x
  most : ∀ range ∈ f.range, ∀ hi ∈ range.maximum, ∀ x ∈ v.number?, x ≤ (hi : Rat)

theorem Carries.fits_iff {f : Field κ} {v : JsonValue} {a : Attr κ} (h : Carries v a) :
    f.Fits a ↔ f.Marks v := by
  have hchosen : ∀ s, a = .str s ↔ v = .str s := by
    intro s
    cases h with
    | bool b => exact iff_of_false nofun nofun
    | str s' => rw [Attr.str.injEq, JsonValue.str.injEq]
    | int hnumber | float hnumber =>
        refine iff_of_false nofun ?_
        rintro rfl
        cases hnumber
  have hleast : ∀ lo : Int, a.lessThan lo = false ↔ ∀ x ∈ v.number?, (lo : Rat) ≤ x := by
    intro lo
    cases h with
    | bool b => exact iff_of_true rfl nofun
    | str s => exact iff_of_true rfl nofun
    | int hnumber | float hnumber =>
        rw [hnumber]
        simp [Attr.lessThan]
  have hmost : ∀ hi : Int, a.exceeds hi = false ↔ ∀ x ∈ v.number?, x ≤ (hi : Rat) := by
    intro hi
    cases h with
    | bool b => exact iff_of_true rfl nofun
    | str s => exact iff_of_true rfl nofun
    | int hnumber | float hnumber =>
        rw [hnumber]
        simp [Attr.exceeds]
  constructor
  · intro hfits
    refine ⟨fun values hvalues => ?_, fun range hrange lo hlo => ?_, fun range hrange hi hhi => ?_⟩
    · simpa only [hchosen] using hfits.chosen values hvalues
    · exact (hleast lo).mp (hfits.least range hrange lo hlo)
    · exact (hmost hi).mp (hfits.most range hrange hi hhi)
  · intro hmarks
    refine ⟨fun values hvalues => ?_, fun range hrange lo hlo => ?_, fun range hrange hi hhi => ?_⟩
    · simpa only [hchosen] using hmarks.chosen values hvalues
    · exact (hleast lo).mpr (hmarks.least range hrange lo hlo)
    · exact (hmost hi).mpr (hmarks.most range hrange hi hhi)

theorem Carries.str_of_has {v : JsonValue} {a : Attr κ} (h : Carries v a)
    (htype : JsonType.string.has v = true) : ∃ s, v = .str s ∧ a = .str s := by
  cases v with
  | str s =>
      cases h with
      | str => exact ⟨s, rfl, rfl⟩
      | int hnumber | float hnumber => cases hnumber
  | _ => exact Bool.noConfusion htype

theorem Carries.int_of_check [DecidableEq κ] {reg : Registry κ} {v : JsonValue} {a : Attr κ}
    {place : String} (h : Carries v a) (hcheck : checkType reg .int a place = .ok ()) :
    ∃ n : Int, v.number? = some (n : Rat) ∧ a = .int n := by
  cases h with
  | int hnumber => exact ⟨_, hnumber, rfl⟩
  | _ => cases hcheck

/-! ## The checks of a field -/

theorem validate_none (cls : SpecClass κ) (f : Field κ) (lenient : Bool) :
    validate cls f .none lenient = .ok .none := rfl

theorem Field.allows_iff {f : Field κ} {a : Attr κ} :
    f.allows a = true ↔ ∀ values ∈ f.choices, ∃ s ∈ values, a = .str s := by
  rw [allows, Option.all_eq_true]
  refine forall_congr' fun values => forall_congr' fun _ => ?_
  cases a <;> simp

theorem Range.excludes_eq_false {range : Range} {a : Attr κ} :
    range.excludes a = false ↔
      (∀ lo ∈ range.minimum, a.lessThan lo = false) ∧
        ∀ hi ∈ range.maximum, a.exceeds hi = false := by
  rw [excludes, Bool.or_eq_false_iff, Option.any_eq_false, Option.any_eq_false]
  simp

theorem Field.fits_iff {f : Field κ} {a : Attr κ} :
    f.Fits a ↔ f.allows a = true ∧ ∀ range ∈ f.range, range.excludes a = false := by
  simp only [Field.allows_iff, Range.excludes_eq_false]
  constructor
  · exact fun h => ⟨h.chosen, fun range hr => ⟨h.least range hr, h.most range hr⟩⟩
  · exact fun ⟨hc, hr⟩ => ⟨hc, fun range h => (hr range h).1, fun range h => (hr range h).2⟩

theorem validate_eq_ok {cls : SpecClass κ} {f : Field κ} {a b : Attr κ} (ha : a ≠ .none) :
    validate cls f a false = .ok b ↔ b = a ∧ f.Fits a := by
  have hsome : validate cls f a false =
      if ¬ f.allows a then .error (.notOneOf (cls.place f.name) (f.choices.getD []))
      else f.range.elim (.ok a) fun range =>
        if range.excludes a then .error (.outside (cls.place f.name) range) else .ok a := by
    cases a with
    | none => exact absurd rfl ha
    | _ =>
        simp only [validate]
        cases f.range <;> rfl
  rw [hsome, Field.fits_iff]
  by_cases hallows : f.allows a = true
  · rw [if_neg (not_not.mpr hallows), and_iff_right hallows]
    cases hrange : f.range with
    | none => rw [Option.elim_none, Except.ok.injEq, eq_comm, and_iff_left (by simp)]
    | some range =>
        have hall : (∀ range' ∈ some range, range'.excludes a = false) ↔
            range.excludes a = false := by simp
        rw [Option.elim_some, hall]
        cases range.excludes a with
        | false => rw [if_neg Bool.false_ne_true, Except.ok.injEq, eq_comm, and_iff_left rfl]
        | true =>
            rw [if_pos rfl]
            exact iff_of_false (by simp) fun h => Bool.noConfusion h.2
  · rw [if_pos hallows]
    exact iff_of_false (by simp) fun h => hallows h.2.1

section Check

variable [DecidableEq κ] {reg : Registry κ} {cls : SpecClass κ} {f : Field κ} {a : Attr κ}

theorem checkField_eq_ok (ha : a ≠ .none) :
    checkField reg cls f a = .ok () ↔
      checkType reg f.target a (cls.place f.name) = .ok () ∧ f.Fits a := by
  have hsome : checkField reg cls f a =
      (checkType reg f.target a (cls.place f.name) >>= fun _ =>
        validate cls f a false >>= fun _ => .ok ()) := by
    cases a with
    | none => exact absurd rfl ha
    | _ => rfl
  rw [hsome, except_bind_eq_ok]
  simp only [except_bind_eq_ok, validate_eq_ok ha]
  constructor
  · rintro ⟨⟨⟩, htype, b, ⟨-, hfits⟩, -⟩
    exact ⟨htype, hfits⟩
  · exact fun ⟨htype, hfits⟩ => ⟨(), htype, a, ⟨rfl, hfits⟩, trivial⟩

end Check

/-! ## A field that holds no nested spec -/

/-- The type that the schema gives for a type of the class. -/
def Target.jsonType? : Target κ → Option JsonType
  | .str => some .string
  | .int => some .integer
  | .float => some .number
  | .bool => some .boolean
  | .spec _ | .any => none

theorem Field.node_eq (f : Field κ) :
    f.node =
      { type := f.target.jsonType?, enum := f.choices, minimum := f.range.bind Range.minimum,
        maximum := f.range.bind Range.maximum, ref := f.target? } := by
  rw [node, fieldSchema, Field.target?]
  cases f.target <;> cases f.choices <;> cases f.range <;> rfl

theorem Field.plain_node {f : Field κ} {v : JsonValue} :
    f.node.plain v = true ↔ (∀ t ∈ f.target.jsonType?, t.has v = true) ∧ f.Marks v := by
  rw [node_eq, Schema.plain]
  simp only [Option.all_none, Bool.and_true, List.all_nil, Bool.or_true, Bool.not_false,
    Bool.true_or, Bool.and_eq_true, JsonValue.oneOf_eq_true, Option.all_eq_true, decide_eq_true_eq,
    Option.bind_eq_some_iff]
  constructor
  · rintro ⟨⟨⟨htype, hc⟩, hleast⟩, hmost⟩
    refine ⟨htype, hc, fun range hr lo hlo => hleast lo ⟨range, hr, hlo⟩, ?_⟩
    exact fun range hr hi hhi => hmost hi ⟨range, hr, hhi⟩
  · rintro ⟨htype, hmarks⟩
    refine ⟨⟨⟨htype, hmarks.chosen⟩, ?_⟩, ?_⟩
    · rintro lo ⟨range, hr, hlo⟩
      exact hmarks.least range hr lo hlo
    · rintro hi ⟨range, hr, hhi⟩
      exact hmarks.most range hr hi hhi

theorem Field.validates_node {f : Field κ} {v : JsonValue} {defs : κ → Option (Schema κ)} :
    Validates defs f.node v ↔
      f.node.plain v = true ∧ ∀ k ∈ f.target?, ∃ s ∈ defs k, Validates defs s v := by
  rw [validates_iff, node_eq]
  simp

section Read

variable {spelled : Spelled} {cls : SpecClass κ} {f : Field κ}
  {recurse : κ → JsonValue → Except Raised (Attr κ)} {v : JsonValue} {t : JsonType} {a : Attr κ}

theorem floatOfInt_nonneg {n m : Int} (hn : 0 ≤ n) (h : floatOfInt n = some m) : 0 ≤ m := by
  rw [floatOfInt] at h
  split at h
  · cases h
  · obtain rfl := Option.some.inj h
    exact mul_nonneg (Int.sign_nonneg_iff.mpr hn) (Int.natCast_nonneg _)

theorem Field.fits_float (hrange : f.range = some { minimum := some 0 })
    (hchoices : f.choices = none) {x : Rat} : f.Fits (.float (.finite x)) ↔ 0 ≤ x := by
  rw [Field.fits_iff, Field.allows, hchoices, hrange]
  simp [Range.excludes, Attr.lessThan]

theorem Field.fits_int (hrange : f.range = some { minimum := some 0 })
    (hchoices : f.choices = none) {n : Int} : f.Fits (.int n) ↔ 0 ≤ n := by
  rw [Field.fits_iff, Field.allows, hchoices, hrange]
  simp [Range.excludes, Attr.lessThan]

/-- A number is read as a float, where it is not an integer too large for one. -/
theorem coerce_float (κ : Type) (spelled : Spelled) (place : String)
    (htype : JsonType.number.has v = true) :
    (∃ x, v = .float x ∧ coerce spelled (.float : Target κ) v place = .ok (.float (.finite x))) ∨
      ∃ n, v = .int n ∧
        coerce spelled (.float : Target κ) v place =
          match floatOfInt n with
          | some m => .ok (.float (.finite m))
          | none => .error .overflowError := by
  cases v with
  | float x => exact Or.inl ⟨x, rfl, rfl⟩
  | int n => exact Or.inr ⟨n, rfl, rfl⟩
  | _ => exact Bool.noConfusion htype

theorem readValue_scalar (hjson : f.target.jsonType? = some t) :
    readValue spelled recurse cls f v = coerce spelled f.target v (cls.place f.name) := by
  rw [readValue]
  cases htarget : f.target with
  | spec =>
      rw [htarget] at hjson
      cases hjson
  | _ => rfl

theorem readField_spec {k : κ} (htarget : f.target = .spec k) (hchoices : f.choices = none)
    (hrange : f.range = none) :
    readField spelled false recurse cls f v = .ok a ↔ v.isObj = true ∧ recurse k v = .ok a := by
  have hvalidate : ∀ b : Attr κ, validate cls f b false = .ok b := by
    intro b
    by_cases hb : b = .none
    · rw [hb, validate_none]
    · refine (validate_eq_ok hb).mpr ⟨rfl, ?_⟩
      rw [Field.fits_iff, Field.allows, hchoices, hrange]
      exact ⟨rfl, nofun⟩
  rw [readField, readValue, htarget, except_bind_eq_ok]
  cases v.isObj with
  | false => simp
  | true => simp [hvalidate]

variable [DecidableEq κ] {reg : Registry κ}

theorem coerce_exact (reg : Registry κ) (spelled : Spelled) (place : String) {target : Target κ}
    (hjson : target.jsonType? = some t)
    (hfloat : target ≠ .float) (htype : t.has v = true) :
    ∃ a, coerce spelled target v place = .ok a ∧ Carries v a ∧
      checkType reg target a place = .ok () := by
  cases target with
  | str =>
      obtain rfl := Option.some.inj hjson
      cases v with
      | str s => exact ⟨.str s, rfl, .str s, rfl⟩
      | _ => exact Bool.noConfusion htype
  | bool =>
      obtain rfl := Option.some.inj hjson
      cases v with
      | bool b => exact ⟨.bool b, rfl, .bool b, rfl⟩
      | _ => exact Bool.noConfusion htype
  | int =>
      obtain rfl := Option.some.inj hjson
      cases v with
      | int n => exact ⟨.int n, rfl, .int rfl, rfl⟩
      | float x =>
          have hden : x.den = 1 := of_decide_eq_true htype
          refine ⟨.int x.num, if_pos hden, .int ?_, rfl⟩
          rw [JsonValue.number?, Rat.coe_int_num_of_den_eq_one hden]
      | _ => exact Bool.noConfusion htype
  | float => exact absurd rfl hfloat
  | spec => cases hjson
  | any => cases hjson

/-- What the schema says of a field that holds no nested spec is what the reader wants, as far as a
double goes. -/
theorem readField_scalar (reg : Registry κ) (spelled : Spelled)
    (recurse : κ → JsonValue → Except Raised (Attr κ)) (cls : SpecClass κ)
    (hjson : f.target.jsonType? = some t)
    (hrange : f.target = .float → f.range = some { minimum := some 0 })
    (hchoices : f.target = .float → f.choices = none)
    (hplain : f.node.plain v = true) :
    ((∃ a, readField spelled false recurse cls f v = .ok a) ↔
        (f.target = .float → ∀ n, v = .int n → floatOfInt n ≠ none)) ∧
      ∀ a, readField spelled false recurse cls f v = .ok a →
        checkField reg cls f a = .ok () ∧ (f.target ≠ .float → Carries v a) := by
  obtain ⟨htype, hmarks⟩ := Field.plain_node.mp hplain
  simp only [readField, readValue_scalar hjson, except_bind_eq_ok]
  by_cases hfloat : f.target = .float
  · rw [hfloat] at hjson
    obtain rfl := Option.some.inj hjson
    have hne : ∀ x, (.float (.finite x) : Attr κ) ≠ .none := fun _ => by simp
    have hok : ∀ x : Rat, 0 ≤ x →
        f.Fits (.float (.finite x)) ∧ checkField reg cls f (.float (.finite x)) = .ok () := by
      intro x hx
      have hfits : f.Fits (.float (.finite x)) :=
        (Field.fits_float (hrange hfloat) (hchoices hfloat)).mpr hx
      refine ⟨hfits, (checkField_eq_ok (hne x)).mpr ⟨?_, hfits⟩⟩
      rw [hfloat]
      rfl
    have hzero : ∀ x ∈ v.number?, 0 ≤ x := by
      intro x hx
      have hleast := hmarks.least _ (hrange hfloat) 0 rfl x hx
      rwa [Int.cast_zero] at hleast
    rw [hfloat]
    rcases coerce_float κ spelled (cls.place f.name)
      (htype _ (by rw [hfloat]; rfl)) with ⟨x, rfl, hx⟩ | ⟨n, rfl, hn⟩
    · obtain ⟨hfits, hcheck⟩ := hok x (hzero x rfl)
      rw [hx]
      refine ⟨iff_of_true ⟨_, _, rfl, (validate_eq_ok (hne x)).mpr ⟨rfl, hfits⟩⟩ (by simp), ?_⟩
      rintro a ⟨b, hb, ha⟩
      obtain rfl := Except.ok.inj hb
      obtain ⟨rfl, -⟩ := (validate_eq_ok (hne x)).mp ha
      exact ⟨hcheck, fun h => absurd rfl h⟩
    · rw [hn]
      cases hfloatn : floatOfInt n with
      | none =>
          refine ⟨iff_of_false (by simp) fun h => h rfl n rfl hfloatn, ?_⟩
          rintro a ⟨b, hb, -⟩
          cases hb
      | some m =>
          have hm : (0 : Rat) ≤ m :=
            Int.cast_nonneg (floatOfInt_nonneg (Int.cast_nonneg_iff.mp (hzero n rfl)) hfloatn)
          obtain ⟨hfits, hcheck⟩ := hok m hm
          refine ⟨iff_of_true ⟨_, _, rfl, (validate_eq_ok (hne m)).mpr ⟨rfl, hfits⟩⟩ ?_, ?_⟩
          · rintro - n' hn' hnone
            obtain rfl := JsonValue.int.inj hn'
            rw [hfloatn] at hnone
            cases hnone
          · rintro a ⟨b, hb, ha⟩
            obtain rfl := Except.ok.inj hb
            obtain ⟨rfl, -⟩ := (validate_eq_ok (hne m)).mp ha
            exact ⟨hcheck, fun h => absurd rfl h⟩
  · obtain ⟨b, hb, hcarries, hcheck⟩ := coerce_exact reg spelled
      (cls.place f.name) hjson hfloat (htype t hjson)
    have hsome : b ≠ .none := by
      rintro rfl
      cases hcarries
    have hfits : f.Fits b := hcarries.fits_iff.mpr hmarks
    have hok : checkField reg cls f b = .ok () := (checkField_eq_ok hsome).mpr ⟨hcheck, hfits⟩
    refine ⟨iff_of_true ⟨b, b, hb, (validate_eq_ok hsome).mpr ⟨rfl, hfits⟩⟩ ?_, ?_⟩
    · exact fun h => absurd h hfloat
    · rintro a ⟨b', hb', ha⟩
      obtain rfl := Except.ok.inj (hb.symm.trans hb')
      obtain ⟨rfl, -⟩ := (validate_eq_ok hsome).mp ha
      exact ⟨hok, fun _ => hcarries⟩

end Read

end AioMoqt.Agent
