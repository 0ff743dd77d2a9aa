import DesignComponents.Css.Extract
import DesignComponents.Document.Basic
import DesignComponents.Property.Schema
import DesignComponents.Property.VariantName

/-!
What a document tells about a node of its own.
-/

namespace DesignComponents

/-- The component that an instance shows; its node is known if it is part of the document. -/
structure MainComponent where
  id : Json
  name : Json
  key : Json
  node : Option Node

namespace Document

def css (d : Document) (n : Node) : Traced (Option Css) := do
  let _ ← d.require n
  let css ← Css.extract n.value
  pure (some css)

def parent (d : Document) (n : Node) : Traced (Option Node) := do
  let id ← d.require n
  pure (match (d.entry? id).bind Entry.parent with
    | some p => if p.toJson.isTruthy then d.node? p else none
    | none => none)

def componentData (d : Document) (id : Json) : Except Fault Json :=
  match d.components with
  | .obj fs => do
    match ← id.key with
    | .str s => pure ((fs.lookup s).getD (.obj []))
    | _ => pure (.obj [])
  | v => .error (.noMember v.kind "get")

def mainComponent (d : Document) (n : Node) : Traced (Option MainComponent) := do
  let _ ← d.require n
  let id ← n.value.get "componentId"
  if id.isTruthy then
    let data ← d.componentData id
    match d.node? (← id.key) with
    | none =>
      if data.isTruthy then
        pure (some ⟨id, ← data.getOr "name" (.str ""), ← data.getOr "key" (.str ""), none⟩)
      else pure none
    | some m => do
      let own ← m.value.get "name"
      let name ← if own.isTruthy then pure own else data.getOr "name" (.str "")
      pure (some ⟨id, name, ← data.getOr "key" (.str ""), some m⟩)
  else pure none

def propertyDefinitions (d : Document) (n : Node) : Traced (Option Schema) := do
  let _ ← d.require n
  let raw ← n.value.get "componentPropertyDefinitions"
  if raw.isTruthy then
    let schema ← Schema.parse raw
    pure (some schema)
  else pure none

def variantValues : List (String × Json) → Except Fault (OrderedMap String String)
  | [] => .ok []
  | (name, p) :: ps => do
    let type ← p.get "type"
    let value ← p.get "value"
    let rest ← variantValues ps
    pure (if type.isText PropertyType.variant.name then (name, value.display) :: rest else rest)

/-- No values at all count as none. -/
def someValues (m : OrderedMap String String) : Option (OrderedMap String String) :=
  if m.isEmpty then none else some m

/-- The values that select a variant: those set on an instance, and those that the name of a
component in a set tells. -/
def variantProperties (d : Document) (n : Node) : Traced (Option (OrderedMap String String)) := do
  let id ← d.require n
  let type ← n.value.get "type"
  if type.isText "INSTANCE" then
    let properties := (← n.value.get "componentProperties").orEmpty
    let values ← variantValues (← properties.fields)
    pure (someValues values)
  else if type.isText "COMPONENT" then
    match d.node? (((d.entry? id).bind Entry.parent).getD (.str "")) with
    | none => pure none
    | some p => do
      if (← p.value.get "type").isText "COMPONENT_SET" then
        let name ← n.value.getOr "name" (.str "")
        pure (someValues (VariantName.parse (← name.text "split")))
      else pure none
  else pure none

def variableModes (d : Document) (n : Node) : Traced (Option (OrderedMap Key Json)) := do
  let _ ← d.require n
  let modes ← n.value.get "explicitVariableModes"
  if modes.isTruthy then
    let table ← modes.table
    pure (some table)
  else pure none

def localVariables (d : Document) : Except Fault (OrderedMap Key Json) := d.variableData.table

def localCollections (d : Document) : Except Fault (OrderedMap Key Json) := d.collectionData.table

end Document

end DesignComponents
