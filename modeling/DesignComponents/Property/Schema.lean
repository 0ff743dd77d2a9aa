import DesignComponents.Traced

/-!
The properties of a component: what type each has, its default, and the values it may take.
-/

namespace DesignComponents

inductive PropertyType
  | boolean
  | text
  | instanceSwap
  | variant
  deriving DecidableEq, Repr

namespace PropertyType

def name : PropertyType → String
  | .boolean => "BOOLEAN"
  | .text => "TEXT"
  | .instanceSwap => "INSTANCE_SWAP"
  | .variant => "VARIANT"

def ofName? (s : String) : Option PropertyType :=
  if s = "BOOLEAN" then some .boolean
  else if s = "TEXT" then some .text
  else if s = "INSTANCE_SWAP" then some .instanceSwap
  else if s = "VARIANT" then some .variant
  else none

def ofJson? : Json → Option PropertyType
  | .str s => ofName? s
  | _ => none

@[simp] theorem ofName?_name (t : PropertyType) : ofName? t.name = some t := by
  cases t <;> decide

@[simp] theorem ofJson?_name (t : PropertyType) : ofJson? (.str t.name) = some t := ofName?_name t

end PropertyType

/-- A null default is none. -/
structure PropertyDefinition where
  type : PropertyType
  default : Json
  options : Option (List Json)

abbrev Schema := OrderedMap String PropertyDefinition

namespace PropertyDefinition

def toJson (d : PropertyDefinition) : Json :=
  .obj (("type", .str d.type.name) ::
    ((match d.default with
      | .null => []
      | v => [("defaultValue", v)]) ++
     (match d.options with
      | none => []
      | some xs => [("variantOptions", .arr xs)])))

/-- The options of a definition, which run through whatever is given. -/
def optionsOf (v : Json) : Except Fault (Option (List Json)) :=
  match v with
  | .null => .ok none
  | v => v.elements.map some

/-- One definition of a document; none if its type is not supported. -/
def parse (name : String) (v : Json) : Traced (Option PropertyDefinition) := do
  let type ← v.get "type"
  match PropertyType.ofJson? type with
  | none => do
    Traced.warn (.unsupportedProperty type name)
    pure none
  | some t => do
    let options ← optionsOf (← v.get "variantOptions")
    pure (some ⟨t, ← v.get "defaultValue", options⟩)

def typeOf (v : Json) : Except Fault PropertyType := do
  let type ← v.field "type"
  match PropertyType.ofJson? type with
  | none => throw (.unknownPropertyType type)
  | some t => pure t

/-- A definition given by itself. Its options are looked at only where they matter. -/
def ofJson (v : Json) : Except Fault PropertyDefinition := do
  let type ← typeOf v
  let given ← v.get "variantOptions"
  let options ←
    if type = .variant then given.elementsOrNone
    else pure (match given with | .arr xs => xs | _ => [])
  pure ⟨type, ← v.get "defaultValue", if given.isTruthy then some options else none⟩

end PropertyDefinition

namespace Schema

def parseFields : List (String × Json) → Traced Schema
  | [] => pure []
  | (name, v) :: rest => do
    let d ← PropertyDefinition.parse name v
    let ds ← parseFields rest
    pure (match d with
      | some d => (name, d) :: ds
      | none => ds)

def parse (raw : Json) : Traced Schema := do
  parseFields (← raw.fields)

def toFields (s : Schema) : List (String × Json) := s.map fun p => (p.1, p.2.toJson)

def toJson (s : Schema) : Json := .obj s.toFields

@[simp] theorem toFields_nil : toFields [] = [] := rfl

@[simp] theorem toFields_cons (p : String × PropertyDefinition) (s : Schema) :
    toFields (p :: s) = (p.1, p.2.toJson) :: toFields s := rfl

@[simp] theorem parseFields_nil : parseFields [] = pure [] := rfl

end Schema

end DesignComponents
