import DesignComponents.Document.Query
import DesignComponents.Outline.Basic

/-!
Walking a scene. All children of a node are visited at once, so warnings come level by level,
while the outline keeps the order of the scene. What the document does not know of a node that is
not its own is left out.
-/

namespace DesignComponents

namespace Traced

variable {α : Type}

def firstFault? : List (Traced α) → Option Fault
  | [] => none
  | x :: xs =>
    match x.result with
    | .error e => some e
    | .ok _ => firstFault? xs

/-- Run the computations of a tree in the order in which a queue serves them. -/
def settle (t : Tree (Traced α)) : Traced (Tree α) :=
  let runs := Tree.breadthFirst [t]
  { log := runs.flatMap Traced.log
    result :=
      match firstFault? runs with
      | some e => .error e
      | none => (t.map Traced.result).sequence }

end Traced

inductive Descent
  | none
  | first
  | all
  deriving DecidableEq, Repr

namespace Document

def factsByKind (d : Document) (n : Node) (kind : NodeKind) (f : Facts) : Traced Facts :=
  match kind with
  | .instance_ => do
    let main ← (d.mainComponent n).soft
    let values ← (d.variantProperties n).soft
    pure { f with
      instanceOf := main.map fun m => ⟨m.name, m.id, m.key⟩
      propertyValues := values }
  | .component => do
    let values ← (d.variantProperties n).soft
    let modes ← (d.variableModes n).soft
    pure { f with propertyValues := values, modes := modes }
  | .componentSet => do
    let schema ← (d.propertyDefinitions n).soft
    pure { f with propertySchema := schema }
  | .other => do
    let type ← n.value.get "type"
    Traced.warn (.unhandledNode type f.name f.id)
    pure f
  | _ => pure f

/-- Which children are walked; they have to be such that they can be run through. -/
def descent (n : Node) (policy : NodePolicy) : Except Fault Descent := do
  let children ← n.value.get "children"
  if policy.stops || !children.isTruthy then pure .none
  else if policy.firstChildOnly then
    match children with
    | .arr _ | .str _ => pure .first
    | v => throw (.notIndexed v.kind)
  else do
    let _ ← children.elements
    pure .all

def observe (d : Document) (n : Node) : Traced (Facts × Descent) := do
  let policy ← NodePolicy.ofNode n.value
  let name ← n.value.getOr "name" (.str "")
  let id ← n.value.getOr "id" (.str "")
  let css ← if policy.extractsCss then (d.css n).soft else pure none
  let facts ← d.factsByKind n policy.kind { name := name, id := id, css := css }
  let descent ← descent n policy
  pure (facts, descent)

/-- How far to go below a node; a node that failed has nothing below it. -/
def descentOf (x : Traced (Facts × Descent)) : Descent :=
  match x.result with
  | .ok (_, descent) => descent
  | .error _ => .none

mutual

/-- The computations of a walk, one at every node that it reaches. -/
def walk (d : Document) : Node → Tree (Traced Facts)
  | .node site children =>
    let x := d.observe (.node site children)
    .node (Prod.fst <$> x) (walkBelow d (descentOf x) children)

def walkBelow (d : Document) : Descent → List Node → List (Tree (Traced Facts))
  | .none, _ => []
  | _, [] => []
  | .first, n :: _ => [walk d n]
  | .all, n :: ns => walk d n :: walkBelow d .all ns

end

def visit (d : Document) (n : Node) : Traced Outline := Traced.settle (d.walk n)

def visitAll (d : Document) : List Node → Traced (List Outline)
  | [] => pure []
  | n :: ns => do
    let o ← d.visit n
    let os ← visitAll d ns
    pure (o :: os)

end Document

end DesignComponents
