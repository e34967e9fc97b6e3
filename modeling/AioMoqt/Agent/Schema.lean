import AioMoqt.Agent.Spec

/-!
# The schema of a spec

`json_schema` of `agent/schema.py`: the schema of a spec class, with those of the specs in it as
definitions.
-/

namespace AioMoqt.Agent

open AioMoqt.Lib AioMoqt.Lib.JsonSchema

section Nested

variable {κ : Type} [DecidableEq κ] (reg : Registry κ)

/-- `_field_schema`, where `collect` adds a nested spec to the definitions. -/
def fieldSchema (collect : κ → Dict κ (Schema κ) → Dict κ (Schema κ)) (f : Field κ)
    (defs : Dict κ (Schema κ)) : Schema κ × Dict κ (Schema κ) :=
  let (node, defs) : Schema κ × Dict κ (Schema κ) :=
    match f.target with
    | .spec cls => ({ ref := some cls }, collect cls defs)
    | .str => ({ type := some .string }, defs)
    | .int => ({ type := some .integer }, defs)
    | .float => ({ type := some .number }, defs)
    | .bool => ({ type := some .boolean }, defs)
    | .any => ({}, defs)
  let node := match f.choices with
    | some values => { node with enum := some values }
    | none => node
  let node := match f.range with
    | some range => { node with minimum := range.minimum, maximum := range.maximum }
    | none => node
  (node, defs)

/-- The properties of a class, one field after the other. -/
def collectFields (collect : κ → Dict κ (Schema κ) → Dict κ (Schema κ)) :
    List (Field κ) → Dict κ (Schema κ) → List (String × Schema κ) × Dict κ (Schema κ)
  | [], defs => ([], defs)
  | f :: fields, defs =>
      let (node, defs) := fieldSchema collect f defs
      let (props, defs) := collectFields collect fields defs
      ((f.name, node) :: props, defs)

/-- The fields that have to be given. -/
def SpecClass.required {κ : Type} (cls : SpecClass κ) : List String :=
  (cls.fields.filter fun f => f.default.isNone && !f.optional).map Field.name

/-- `_collect`, as deep as the fuel lasts. -/
def collectWithin : Nat → κ → Dict κ (Schema κ) → Dict κ (Schema κ)
  | 0, _, defs => defs
  | fuel + 1, k, defs =>
      if k ∈ defs.keys then defs
      else
        let cls := reg.cls k
        -- the placeholder breaks reference cycles
        let (props, defs) := collectFields (collectWithin fuel) cls.fields (defs.insert k {})
        defs.insert k
          { type := some .object, properties := props, closed := true, required := cls.required,
            allOf := cls.schemaConstraints }

/-- `_collect`: no nesting goes deeper than there are classes. -/
def collect (k : κ) (defs : Dict κ (Schema κ)) : Dict κ (Schema κ) :=
  collectWithin reg (reg.all.length + 1) k defs

/-- `json_schema`: the schema of the class, and the definitions it refers to. -/
def jsonSchema (k : κ) : Schema κ × Dict κ (Schema κ) :=
  let defs := collect reg k Dict.empty
  ((defs.get? k).getD {}, defs.erase k)

/-- The published schema of a class validates a value. -/
def SchemaValid (k : κ) (v : JsonValue) : Prop :=
  Validates (jsonSchema reg k).2.get? (jsonSchema reg k).1 v

end Nested

end AioMoqt.Agent
