import DesignComponents.Component.Source
import DesignComponents.Markup.Convert

/-!
Components assembled from component sets. The first variant of the set wraps an instance; its main
component gives the markup. The properties are those of the set and those of the main component;
if the latter has none of its own, they are sought in the set that it belongs to, and so on up a
bounded number of sets.
-/

namespace DesignComponents.Document

def maxSchemaDepth : Nat := 8

def refuse {α : Type} (r : Refusal) : Traced α := Traced.fail (.refused r)

def firstVariant? (root : Node) : Except Fault (Option Node) := do
  let children ← root.value.get "children"
  if !children.isTruthy then pure none
  else
    match children with
    | .arr _ | .str _ => pure (root.children.head?.filter fun n => n.value.kind != .null)
    | .obj _ => throw (.missing (.num (.int 0)))
    | v => throw (.notIndexed v.kind)

def firstInstance? : List Node → Except Fault (Option Node)
  | [] => .ok none
  | n :: ns => do
    if (← n.kind) = .instance_ then pure (some n) else firstInstance? ns

/-- The identifier of a component set, and the main component that its first variant wraps. -/
def wrapped (d : Document) (root : Node) : Traced (Key × Node) := do
  if (← root.kind) ≠ .componentSet then refuse .notComponentSet
  else
    let id ← (← root.value.getOr "id" (.str "")).key
    match ← firstVariant? root with
    | none => refuse .firstVariantNotComponent
    | some variant => do
      if (← variant.kind) ≠ .component then refuse .firstVariantNotComponent
      else
        let _ ← (← variant.value.get "children").elementsOrNone
        match ← firstInstance? variant.children with
        | none => refuse .noInstance
        | some shown => do
          let main ← (d.mainComponent shown).soft
          match main.bind MainComponent.node with
          | none => refuse (.noMainComponent (← shown.value.getOr "name" (.str "")))
          | some node => pure (id, node)

def ownSchema (d : Document) (n : Node) : Traced Schema := do
  let schema ← (d.propertyDefinitions n).soft
  pure (schema.getD [])

/-- The definitions for a component without own ones, from the set above it. `ascend` assembles
that set, if the chain may have another one. -/
def inheritedSchema (d : Document) (ascend : Option (List Key → Node → Traced Component))
    (seen : List Key) (component : Node) : Traced Schema := do
  match ← (d.parent component).soft with
  | none => pure []
  | some p => do
    let id ← (← p.value.get "id").key
    match ascend with
    | none => pure []
    | some ascend =>
      if seen.contains id then pure []
      else
        let above := ascend seen p
        match above.result with
        | .ok c => ⟨above.log, .ok c.schema⟩
        | .error (.refused _) => do
          let _ ← (⟨above.log, .ok ()⟩ : Traced Unit)
          d.ownSchema p
        | .error e => ⟨above.log, .error e⟩

/-- One level of a chain; `seen` holds the identifiers of the sets below. -/
def assembleLevel (d : Document) (ascend : Option (List Key → Node → Traced Component))
    (seen : List Key) (root : Node) : Traced Component := do
  let (id, main) ← d.wrapped root
  let schema ← d.ownSchema root
  let declared ← (d.propertyDefinitions main).soft
  let inherited ← match declared with
    | some s => pure s
    | none => d.inheritedSchema ascend (id :: seen) main
  let tree ← d.convert main
  let name ← root.value.getOr "name" (.str "")
  pure ⟨name, schema.merge inherited, tree⟩

def assembleUpTo (d : Document) : Nat → List Key → Node → Traced Component
  | 0 => d.assembleLevel none
  | levels + 1 => d.assembleLevel (some (d.assembleUpTo levels))

def assemble (d : Document) (root : Node) : Traced Component :=
  d.assembleUpTo (maxSchemaDepth - 1) [] root

end DesignComponents.Document
