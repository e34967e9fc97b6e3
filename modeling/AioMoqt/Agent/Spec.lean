import Mathlib.Algebra.Ring.Nat
import Mathlib.Data.Nat.Size
import AioMoqt.Lib.Dict
import AioMoqt.Lib.JsonSchema

/-!
# Declarative specs

`agent/spec.py`: spec dataclasses that are described by their fields, and how one is checked,
written as a JSON object and read back.  A class is told by its name; a field's type is known
without `Annotated` and `Optional`.
-/

namespace AioMoqt.Agent

open AioMoqt.Lib AioMoqt.Lib.JsonSchema

/-- A Python float. -/
inductive PyFloat where
  | finite (x : Rat)
  | infinite (negative : Bool)
  | nan
  deriving DecidableEq, Repr

/-- The nearest natural number of 53 significant bits, ties to even. -/
def nearestDouble (a : Nat) : Nat :=
  let shift := a.size - 53
  let q := a / 2 ^ shift
  let r := a % 2 ^ shift
  -- 2 * r against 2 ^ shift: above or below the tie
  let m := if 2 ^ shift < 2 * r ∨ 2 ^ shift = 2 * r ∧ q % 2 = 1 then q + 1 else q
  m * 2 ^ shift

/-- `float(n)` of an integer; nothing where it overflows. -/
def floatOfInt (n : Int) : Option Int :=
  let a := nearestDouble n.natAbs
  if 1024 < a.size then none else some (n.sign * (a : Int))

/-- `int(s, 10)` and `float(s)` of a text, where it spells a number. -/
structure Spelled where
  int : String → Option Int
  float : String → Option PyFloat

/-- `Range`. -/
structure Range where
  minimum : Option Int := none
  maximum : Option Int := none
  deriving DecidableEq, Repr

/-- What the type of a field comes to. -/
inductive Target (κ : Type) where
  | str
  | int
  | float
  | bool
  | spec (cls : κ)
  | any
  deriving DecidableEq, Repr

/-- The value of an attribute; `json` is of a field that is not looked into. -/
inductive Attr (κ : Type) where
  | none
  | bool (b : Bool)
  | int (n : Int)
  | float (x : PyFloat)
  | str (s : String)
  | spec (cls : κ) (attrs : List (String × Attr κ)) (extra : List (String × JsonValue))
  | json (v : JsonValue)

/-- A field with its markers, and what its default or its factory gives. -/
structure Field (κ : Type) where
  name : String
  target : Target κ
  optional : Bool := false
  choices : Option (List String) := none
  range : Option Range := none
  default : Option (Attr κ) := none

/-- What goes wrong; the shown value is left out of the message. -/
inductive Raised where
  | expected (place what : String)
  | notOneOf (place : String) (choices : List String)
  | outside (place : String) (range : Range)
  | unknownFields (cls : String) (names known : List String)
  | missingFields (cls : String) (names : List String)
  | shadows (cls : String) (names : List String)
  | noField (place owner name : String)
  | notNested (place name : String)
  | noChildren (place parent : String)
  | namedTwice (place parent child : String)
  | unexpected (cls : String) (names : List String)
  | specError (message : String)
  | overflowError
  | attributeError
  | keyError
  | recursionError
  deriving DecidableEq, Repr

/-- A spec dataclass; `extra` is not among its fields. -/
structure SpecClass (κ : Type) where
  name : String
  fields : List (Field κ)
  nodup : (fields.map Field.name).Nodup
  hasExtra : Bool := false
  schemaConstraints : List (Schema κ) := []
  postInit : (String → Attr κ) → Except Raised Unit := fun _ => .ok ()

/-- The spec classes there are. -/
structure Registry (κ : Type) where
  cls : κ → SpecClass κ
  all : List κ
  mem_all : ∀ k, k ∈ all

/-- `spec_keys`. -/
def SpecClass.keys {κ : Type} (cls : SpecClass κ) : List String := cls.fields.map Field.name

/-- `f"{cls.__name__}.{name}"`. -/
def SpecClass.place {κ : Type} (cls : SpecClass κ) (name : String) : String :=
  cls.name ++ "." ++ name

section Values

variable {κ : Type}

/-- `value < lo` of a number. -/
def Attr.lessThan (a : Attr κ) (lo : Int) : Bool :=
  match a with
  | .int n => n < lo
  | .float (.finite x) => x < lo
  | .float (.infinite negative) => negative
  | _ => false

/-- `value > hi` of a number. -/
def Attr.exceeds (a : Attr κ) (hi : Int) : Bool :=
  match a with
  | .int n => hi < n
  | .float (.finite x) => hi < x
  | .float (.infinite negative) => !negative
  | _ => false

/-- `_coerce` to a type that is not a spec. -/
def coerce (spelled : Spelled) (target : Target κ) (v : JsonValue) (place : String) :
    Except Raised (Attr κ) :=
  match target with
  | .bool =>
      match v with
      | .bool b => .ok (.bool b)
      | .str s =>
          if s.toLower = "true" then .ok (.bool true)
          else if s.toLower = "false" then .ok (.bool false)
          else .error (.expected place "a boolean")
      | _ => .error (.expected place "a boolean")
  | .int =>
      match v with
      | .int n => .ok (.int n)
      | .float x =>
          if x.den = 1 then .ok (.int x.num) else .error (.expected place "an integer")
      | .str s =>
          match spelled.int s with
          | some n => .ok (.int n)
          | none => .error (.expected place "an integer")
      | _ => .error (.expected place "an integer")
  | .float =>
      match v with
      | .int n =>
          match floatOfInt n with
          | some m => .ok (.float (.finite m))
          | none => .error .overflowError
      | .float x => .ok (.float (.finite x))
      | .str s =>
          match spelled.float s with
          | some x => .ok (.float x)
          | none => .error (.expected place "a number")
      | _ => .error (.expected place "a number")
  | .str =>
      match v with
      | .str s => .ok (.str s)
      | _ => .error (.expected place "a string")
  | .spec _ | .any => .ok (.json v)

/-- `min(hi, max(lo, value))` where both bounds are there. -/
def clamp (range : Range) (a : Attr κ) : Attr κ :=
  match range.minimum, range.maximum with
  | some lo, some hi =>
      let a := if a.lessThan lo then .int lo else a
      if a.exceeds hi then .int hi else a
  | _, _ => a

/-- `value in ch.values`, where there are choices. -/
def Field.allows (f : Field κ) (a : Attr κ) : Bool :=
  f.choices.all fun values => match a with | .str s => s ∈ values | _ => false

/-- A number is beyond one of the bounds. -/
def Range.excludes (range : Range) (a : Attr κ) : Bool :=
  range.minimum.any (a.lessThan ·) || range.maximum.any (a.exceeds ·)

/-- `_validate`. -/
def validate (cls : SpecClass κ) (f : Field κ) (a : Attr κ) (lenient : Bool) :
    Except Raised (Attr κ) :=
  match a with
  | .none => .ok .none
  | a =>
      if ¬ f.allows a then .error (.notOneOf (cls.place f.name) (f.choices.getD []))
      else
        match f.range with
        | none => .ok a
        | some range =>
            if range.excludes a then
              if lenient then .ok (clamp range a) else .error (.outside (cls.place f.name) range)
            else .ok a

end Values

section Classes

variable {κ : Type} [DecidableEq κ] (reg : Registry κ)

/-- `_check_type`. -/
def checkType (target : Target κ) (a : Attr κ) (place : String) : Except Raised Unit :=
  match target, a with
  | .spec inner, .spec cls _ _ =>
      if cls = inner then .ok () else .error (.expected place (reg.cls inner).name)
  | .spec inner, _ => .error (.expected place (reg.cls inner).name)
  | .bool, .bool _ => .ok ()
  | .bool, _ => .error (.expected place "bool")
  | .int, .int _ => .ok ()
  | .int, _ => .error (.expected place "int")
  | .float, .int _ | .float, .float _ => .ok ()
  | .float, _ => .error (.expected place "float")
  | .str, .str _ => .ok ()
  | .str, _ => .error (.expected place "str")
  | .any, _ => .ok ()

/-- An attribute by its name. -/
def attrOf {κ : Type} (attrs : List (String × Attr κ)) (name : String) : Attr κ :=
  (attrs.lookup name).getD .none

/-- One field's part in `check_instance`. -/
def checkField (cls : SpecClass κ) (f : Field κ) (a : Attr κ) : Except Raised Unit :=
  match a with
  | .none => .ok ()
  | a => do
      checkType reg f.target a (cls.place f.name)
      let _ ← validate cls f a false
      .ok ()

/-- `check_instance`. -/
def checkInstance (cls : SpecClass κ) (attrs : List (String × Attr κ))
    (extra : List (String × JsonValue)) : Except Raised Unit := do
  cls.fields.forM fun f => checkField reg cls f (attrOf attrs f.name)
  let clash := (extra.map Prod.fst).filter (· ∈ cls.keys)
  if clash ≠ [] then .error (.shadows cls.name clash) else .ok ()

/-- `cls(**kwargs)`: a field that is not given has its default. -/
def construct (k : κ) (given : List (String × Attr κ)) (extra : List (String × JsonValue)) :
    Except Raised (Attr κ) := do
  let attrs := (reg.cls k).fields.map fun f =>
    (f.name, (given.lookup f.name).getD (f.default.getD .none))
  checkInstance reg (reg.cls k) attrs extra
  (reg.cls k).postInit (attrOf attrs)
  .ok (.spec k attrs extra)

/-- `None` is not written, and neither is a nested spec that says nothing. -/
def omits {κ : Type} : Attr κ → JsonValue → Bool
  | .none, _ => true
  | .spec .., .obj [] => true
  | _, _ => false

mutual

/-- `to_dict`, and a value that is no spec as it is.  Nothing where a float is not a JSON number. -/
def toDict : Attr κ → Option JsonValue
  | .none => some .null
  | .bool b => some (.bool b)
  | .int n => some (.int n)
  | .float (.finite x) => some (.float x)
  | .float _ => none
  | .str s => some (.str s)
  | .json v => some v
  | .spec _ attrs extra => (entriesOf attrs).map fun entries =>
      .obj (if extra = [] then entries else (Dict.ofEntries (entries ++ extra)).entries)

/-- The fields that are written. -/
def entriesOf : List (String × Attr κ) → Option (List (String × JsonValue))
  | [] => some []
  | (name, a) :: attrs => do
      let v ← toDict a
      let entries ← entriesOf attrs
      some (if omits a v then entries else (name, v) :: entries)

end

/-! ## Reading -/

variable (spelled : Spelled) (lenient : Bool)

/-- One field's value before it is validated; a nested spec is read in turn. -/
def readValue (recurse : κ → JsonValue → Except Raised (Attr κ)) (cls : SpecClass κ) (f : Field κ)
    (v : JsonValue) : Except Raised (Attr κ) :=
  match f.target with
  | .spec inner =>
      if v.isObj then recurse inner v else .error (.expected (cls.place f.name) "an object")
  | target => coerce spelled target v (cls.place f.name)

/-- One field's value. -/
def readField (recurse : κ → JsonValue → Except Raised (Attr κ)) (cls : SpecClass κ) (f : Field κ)
    (v : JsonValue) : Except Raised (Attr κ) := do
  let a ← readValue spelled recurse cls f v
  validate cls f a lenient

/-- The fields that are given, in the order of the class. -/
def readFields (recurse : κ → JsonValue → Except Raised (Attr κ)) (cls : SpecClass κ)
    (data : JsonValue) : List (Field κ) → Except Raised (List (String × Attr κ))
  | [] => .ok []
  | f :: fields =>
      match data.get? f.name with
      | none => readFields recurse cls data fields
      | some v => do
          let a ← readField spelled lenient recurse cls f v
          let rest ← readFields recurse cls data fields
          .ok ((f.name, a) :: rest)

/-- `from_dict`, where `recurse` reads the nested specs. -/
def readSpec (recurse : κ → JsonValue → Except Raised (Attr κ)) (k : κ) (data : JsonValue) :
    Except Raised (Attr κ) :=
  let cls := reg.cls k
  match data with
  | .obj entries => do
      let unknown := (entries.map Prod.fst).filter (· ∉ cls.keys)
      if unknown ≠ [] ∧ ¬ lenient then .error (.unknownFields cls.name unknown cls.keys)
      else
        let given ← readFields spelled lenient recurse cls data cls.fields
        let missing := (cls.fields.filter fun f =>
          f.name ∉ given.map Prod.fst ∧ f.default.isNone).map Field.name
        if missing ≠ [] then .error (.missingFields cls.name missing)
        else
          let extra :=
            if cls.hasExtra then entries.filter fun entry => entry.1 ∉ cls.keys else []
          construct reg k given extra
  | _ => .error (.expected cls.name "an object")

/-- `from_dict` within a recursion limit. -/
def fromDictWithin : Nat → κ → JsonValue → Except Raised (Attr κ)
  | 0, _, _ => .error .recursionError
  | limit + 1, k, data => readSpec reg spelled lenient (fromDictWithin limit) k data

/-- `from_dict`: the nesting of the data is what it recurses on. -/
def fromDict (k : κ) (data : JsonValue) : Except Raised (Attr κ) :=
  fromDictWithin reg spelled lenient (data.depth + 1) k data

end Classes

end AioMoqt.Agent
