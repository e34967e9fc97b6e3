import AioMoqt.Agent.Specs

/-!
# The schema against the reader

What it means that a published schema and `from_dict` agree, and when they do.
-/

namespace AioMoqt.Agent

open AioMoqt.Lib AioMoqt.Lib.JsonSchema

section Instances

variable {κ : Type}

/-- The value of a number as Python compares it. -/
def Attr.number? : Attr κ → Option Rat
  | .bool b => some (if b then 1 else 0)
  | .int n => some n
  | .float (.finite x) => some x
  | _ => Option.none

/-- `==`: numbers by their values, instances by their class and their attributes. -/
inductive Attr.Same : Attr κ → Attr κ → Prop
  | rfl (a : Attr κ) : Same a a
  | number {a b : Attr κ} {x : Rat} : a.number? = some x → b.number? = some x → Same a b
  | spec {k : κ} {attrs attrs' : List (String × Attr κ)} {extra : List (String × JsonValue)} :
      (∀ name, Same (attrOf attrs name) (attrOf attrs' name)) →
        Same (.spec k attrs extra) (.spec k attrs' extra)

variable [DecidableEq κ] (reg : Registry κ)

/-- A value that Python code can make: an instance comes of a call of its class. -/
inductive Constructed : Attr κ → Prop
  | value {a : Attr κ} : (∀ k attrs extra, a ≠ .spec k attrs extra) → Constructed a
  | spec {k : κ} {attrs : List (String × Attr κ)} {extra : List (String × JsonValue)}
      (given : List (String × Attr κ)) :
      construct reg k given extra = .ok (.spec k attrs extra) →
        (∀ entry ∈ attrs, Constructed entry.2) →
          (extra ≠ [] → (reg.cls k).hasExtra = true) → Constructed (.spec k attrs extra)

/-- A field is written and read back without loss: `None` only where it is optional, no float that
JSON does not have, and no integer for a float that a double does not hold. -/
structure Field.Keeps (f : Field κ) (a : Attr κ) : Prop where
  optional : a = .none → f.optional = true
  finite : ∀ x, a = .float x → ∃ r, x = .finite r
  exact : ∀ n, a = .int n → f.target = .float → floatOfInt n = some n

/-- Every field is kept, also in the nested specs. -/
inductive Restorable : Attr κ → Prop
  | value {a : Attr κ} : (∀ k attrs extra, a ≠ .spec k attrs extra) → Restorable a
  | spec {k : κ} {attrs : List (String × Attr κ)} {extra : List (String × JsonValue)} :
      (∀ f ∈ (reg.cls k).fields, f.Keeps (attrOf attrs f.name)) →
        (∀ f ∈ (reg.cls k).fields, Restorable (attrOf attrs f.name)) →
          Restorable (.spec k attrs extra)

end Instances

/-! ## What the schema lets through and the reader does not -/

/-- A start without a mode names no group or object, and a range does not end before it begins. -/
def StartAt.Consistent (v : JsonValue) : Prop :=
  (v.get? "mode" = none → ∀ name ∈ StartAt.numbered, v.get? name = none) ∧
    ∀ group ∈ v.get? "group", ∀ endGroup ∈ v.get? "end_group",
      (∃ mode ∈ v.get? "mode", mode = .str "range") →
        ∀ first ∈ group.number?, ∀ last ∈ endGroup.number?, first ≤ last

/-- A deadline that is written as an integer is not too large for a double. -/
def DeadlineFits (v : JsonValue) : Prop :=
  ∀ deadline ∈ v.get? "timeout_s", ∀ n, deadline = .int n → floatOfInt n ≠ none

/-- The documents of a class that the reader accepts, among those that are valid. -/
def Readable : SpecName → JsonValue → Prop
  | .startAt, v => StartAt.Consistent v
  | .subscribeSpec, v | .fetchSpec, v =>
      (∀ start ∈ v.get? "start_at", StartAt.Consistent start) ∧ DeadlineFits v
  | _, _ => True

end AioMoqt.Agent
